import TemplateLint.Number.Shortest
import TemplateLint.Text.Quoted

/-!
Why a text is rejected as JSON, or as JSON of the shape asked for. An error names its cause and,
when it is known, the byte offset where reading stopped.
-/

namespace TemplateLint.Json

/-- A JSON number: a whole number of at most 64 bits, or a decimal. -/
inductive Number where
  | natural (n : Nat)
  /-- The number `-n`. -/
  | negative (n : Nat)
  | decimal (d : TemplateLint.Number.Decimal)
deriving Repr, DecidableEq

/-- What stands in the text where something else was wanted. -/
inductive Found where
  | null
  | boolean (b : Bool)
  | number (n : Number)
  | string (s : String)
  | sequence
  | map
deriving Repr, DecidableEq

/-- What was wanted. -/
inductive Expected where
  | natural32
  | string
  | sequence
  | map
  | unit
  | stringOrMap
  | singleEntry
  | variantName
  /-- The position of a variant among so many. -/
  | variantIndex (count : Nat)
  | record (name : String)
  | recordOf (name : String) (count : Nat)
  | taggedChoice (name : String)
  | elements (count : Nat)
deriving Repr, DecidableEq

inductive Cause where
  | endInValue
  | endInList
  | endInObject
  | endInString
  | expectedValue
  | expectedWord
  | expectedColon
  | expectedListSeparator
  | expectedObjectSeparator
  | trailingComma
  | trailingCharacters
  | keyNotString
  | invalidNumber
  | numberOutOfRange
  | invalidEscape
  | controlCharacter
  | loneSurrogate
  | unfinishedSurrogate
  | tooDeep
  | wrongType (found : Found) (expected : Expected)
  | wrongValue (found : Found) (expected : Expected)
  | wrongLength (length : Nat) (expected : Expected)
  | missingField (name : String)
  | duplicateField (name : String)
  | unknownVariant (name : String) (known : List String)
deriving Repr, DecidableEq

structure Error where
  cause : Cause
  /-- Bytes read before the error, when they are known. -/
  offset : Option Nat
deriving Repr, DecidableEq

/-- The text ended early, is no JSON, or is JSON of another shape. -/
inductive Category where
  | endOfText
  | grammar
  | content
deriving Repr, DecidableEq

def Cause.category : Cause → Category
  | .endInValue | .endInList | .endInObject | .endInString => .endOfText
  | .wrongType .. | .wrongValue .. | .wrongLength .. | .missingField _ | .duplicateField _
  | .unknownVariant .. => .content
  | _ => .grammar

def Error.category (e : Error) : Category := e.cause.category

/-- An error at a known offset. -/
def Error.at (cause : Cause) (offset : Nat) : Error := ⟨cause, some offset⟩

def Number.text : Number → String
  | .natural n => "integer `" ++ toString n ++ "`"
  | .negative n => "integer `-" ++ toString n ++ "`"
  | .decimal d => "floating point `" ++ d.text ++ "`"

def Found.text : Found → String
  | .null => "null"
  | .boolean true => "boolean `true`"
  | .boolean false => "boolean `false`"
  | .number n => n.text
  | .string s => "string " ++ Text.quote s
  | .sequence => "sequence"
  | .map => "map"

/-- A count of elements, in the singular for one. -/
def elementCount (n : Nat) : String :=
  if n = 1 then "1 element" else toString n ++ " elements"

def Expected.text : Expected → String
  | .natural32 => "u32"
  | .string => "a string"
  | .sequence => "a sequence"
  | .map => "a map"
  | .unit => "unit"
  | .stringOrMap => "string or map"
  | .singleEntry => "map with a single key"
  | .variantName => "variant identifier"
  | .variantIndex count => "variant index 0 <= i < " ++ toString count
  | .record name => "struct " ++ name
  | .recordOf name count => "struct " ++ name ++ " with " ++ elementCount count
  | .taggedChoice name => "internally tagged enum " ++ name
  | .elements count => elementCount count ++ " in sequence"

/-- The known names, each between backticks. -/
def alternatives (names : List String) : String :=
  match names.map fun name => "`" ++ name ++ "`" with
  | [] => "there are no variants"
  | [a] => a
  | [a, b] => a ++ " or " ++ b
  | all => "one of " ++ ", ".intercalate all

def Cause.text : Cause → String
  | .endInValue => "EOF while parsing a value"
  | .endInList => "EOF while parsing a list"
  | .endInObject => "EOF while parsing an object"
  | .endInString => "EOF while parsing a string"
  | .expectedValue => "expected value"
  | .expectedWord => "expected ident"
  | .expectedColon => "expected `:`"
  | .expectedListSeparator => "expected `,` or `]`"
  | .expectedObjectSeparator => "expected `,` or `\x7d`"
  | .trailingComma => "trailing comma"
  | .trailingCharacters => "trailing characters"
  | .keyNotString => "key must be a string"
  | .invalidNumber => "invalid number"
  | .numberOutOfRange => "number out of range"
  | .invalidEscape => "invalid escape"
  | .controlCharacter => "control character (\\u0000-\\u001F) found while parsing a string"
  | .loneSurrogate => "lone leading surrogate in hex escape"
  | .unfinishedSurrogate => "unexpected end of hex escape"
  | .tooDeep => "recursion limit exceeded"
  | .wrongType found expected => "invalid type: " ++ found.text ++ ", expected " ++ expected.text
  | .wrongValue found expected => "invalid value: " ++ found.text ++ ", expected " ++ expected.text
  | .wrongLength length expected =>
    "invalid length " ++ toString length ++ ", expected " ++ expected.text
  | .missingField name => "missing field `" ++ name ++ "`"
  | .duplicateField name => "duplicate field `" ++ name ++ "`"
  | .unknownVariant name known =>
    "unknown variant `" ++ name ++ "`, expected " ++ alternatives known

/-- Line and column of a byte offset, where columns count the bytes since the line break. -/
def byteLineColumn (text : List Char) (offset : Nat) : Nat × Nat :=
  go 1 0 0 text
where
  /-- `start` is where line `line` begins and `here` where the rest begins. -/
  go (line start here : Nat) : List Char → Nat × Nat
    | [] => (line, offset - start)
    | c :: cs =>
      if offset ≤ here then (line, offset - start)
      else
        let next := here + c.utf8Size
        if c = '\n' then go (line + 1) next next cs else go line start next cs

/-- Line and column of the error in the text it comes from; zeros when its place is not known. -/
def Error.place (e : Error) (text : String) : Nat × Nat :=
  match e.offset with
  | some offset => byteLineColumn text.toList offset
  | none => (0, 0)

def Error.message (e : Error) (text : String) : String :=
  match e.offset with
  | some offset =>
    let (line, column) := byteLineColumn text.toList offset
    e.cause.text ++ " at line " ++ toString line ++ " column " ++ toString column
  | none => e.cause.text

end TemplateLint.Json
