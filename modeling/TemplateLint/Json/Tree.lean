import TemplateLint.Json.Error
import TemplateLint.Text.Slice

/-!
A JSON text as a tree of places. Every text has a tree: where it stops being JSON, the tree holds
the error instead of a value. A reader of the tree meets its values and errors in the order of the
text, so the first problem in the text is the one that it reports.

A value that is only passed over is held to the grammar alone. Escapes that name no character and
numbers that are too large matter to a reader of that value only, and the two may stop with
different errors at the same fault; so a fault holds an error for each.
-/

namespace TemplateLint.Json

/-- The error for one who reads the value, and for one who passes over it. -/
structure Fault where
  reading : Error
  skipping : Error
deriving Repr, DecidableEq

def Fault.same (e : Error) : Fault := ⟨e, e⟩

/-- A value without parts. -/
inductive Atom where
  | null
  | boolean (b : Bool)
  | number (n : Number)
  | string (s : String)
deriving Repr, DecidableEq

mutual

inductive Tree where
  /-- A value that begins and ends at these offsets. -/
  | atom (start stop : Nat) (value : Atom)
  /-- Something that cannot be read. It can be passed over unless it has an error for that;
  `isWord` tells a number or a name from a string, and from nothing at all. -/
  | malformed (start : Nat) (isWord : Bool) (reading : Error) (skipping : Option Error)
  | array (start : Nat) (items : Items)
  | object (start : Nat) (members : Members)

/-- The rest of an array, after its bracket or one of its items. -/
inductive Items where
  /-- The closing bracket ends at `stop`. -/
  | close (stop : Nat)
  | item (start : Nat) (value : Tree) (rest : Items)
  /-- Neither an item nor the bracket follows; `resume` is past the blanks, and past a comma and
  the blanks after it. -/
  | fault (resume : Nat) (fault : Fault)

/-- The rest of an object, after its brace or one of its members. -/
inductive Members where
  | close (stop : Nat)
  /-- A member: `lead` is past the blanks after what came before, `resume` past the key, the
  blanks after it and a closing brace there. -/
  | member (lead : Nat) (key : Tree) (resume : Nat) (value : Tree) (rest : Members)
  /-- Neither a member nor the brace follows, but `found`, which is no key. -/
  | fault (lead : Nat) (found : Tree) (fault : Fault)

end

deriving instance DecidableEq for Tree, Items, Members

/-- A place in a text: the bytes before it and the characters after it. -/
structure Cursor where
  offset : Nat
  rest : List Char
deriving Repr, DecidableEq

/-- Where reading goes on, if it does. -/
abbrev Next := Except Fault Cursor

def isBlank (c : Char) : Bool := c = ' ' || c = '\t' || c = '\n' || c = '\r'

namespace Cursor

def ofString (s : String) : Cursor := ⟨0, s.toList⟩

/-- One byte further, or the end of the text. -/
def ahead (k : Cursor) : Nat := if k.rest.isEmpty then k.offset else k.offset + 1

/-- Past `n` characters of one byte each. -/
def advance (k : Cursor) (n : Nat) : Cursor := ⟨k.offset + n, k.rest.drop n⟩

def skipBlanks (k : Cursor) : Cursor := k.advance (k.rest.takeWhile isBlank).length

def fail (k : Cursor) (cause : Cause) : Error := .at cause k.ahead

end Cursor

/-! Strings -/

/-- What a string says, and where the text goes on after it. -/
structure StringScan where
  content : Except Error String
  next : Next

def hexValue? (c : Char) : Option Nat :=
  if c.isDigit then some (c.toNat - '0'.toNat)
  else if 'a' ≤ c && c ≤ 'f' then some (c.toNat - 'a'.toNat + 10)
  else if 'A' ≤ c && c ≤ 'F' then some (c.toNat - 'A'.toNat + 10)
  else none

def fourHex? (a b c d : Char) : Option Nat := do
  return (((← hexValue? a) * 16 + (← hexValue? b)) * 16 + (← hexValue? c)) * 16 + (← hexValue? d)

/-- The character that a letter after a backslash stands for. -/
def shortEscape? : Char → Option Char
  | '"' => some '"'
  | '\\' => some '\\'
  | '/' => some '/'
  | 'b' => some '\x08'
  | 'f' => some '\x0c'
  | 'n' => some '\n'
  | 'r' => some '\r'
  | 't' => some '\t'
  | _ => none

def isHighSurrogate (n : Nat) : Bool := 0xD800 ≤ n && n ≤ 0xDBFF

def isLowSurrogate (n : Nat) : Bool := 0xDC00 ≤ n && n ≤ 0xDFFF

/-- The character of a pair of surrogates. -/
def ofSurrogates (high low : Nat) : Char :=
  Char.ofNat ((high - 0xD800) * 0x400 + (low - 0xDC00) + 0x10000)

/-- The string stops with an error; an earlier flaw comes first for a reader. -/
def StringScan.stop (flaw : Option Error) (fault : Fault) : StringScan :=
  let reading := flaw.getD fault.reading
  ⟨.error reading, .error ⟨reading, fault.skipping⟩⟩

/-- A four digit escape is missing digits. -/
def shortHexError (offset : Nat) (cs : List Char) : Error :=
  let left := Text.byteLength cs
  if 4 ≤ left then .at .invalidEscape (offset + 4) else .at .endInString (offset + left)

/-- The rest of a string. `done` holds its characters so far, last first, `high` a surrogate that
waits for its pair, `flaw` the first thing that cannot be read. -/
def scanString (done : List Char) (high : Option Nat) (flaw : Option Error) (offset : Nat) :
    List Char → StringScan
  | [] => .stop flaw (.same (.at .endInString offset))
  | '"' :: cs =>
    let flaw := flaw <|> high.map fun _ => .at .unfinishedSurrogate (offset + 1)
    let content :=
      match flaw with
      | some e => .error e
      | none => .ok (String.ofList done.reverse)
    ⟨content, .ok ⟨offset + 1, cs⟩⟩
  | '\\' :: cs =>
    match cs with
    | [] => .stop flaw (.same (.at .endInString (offset + 1)))
    | 'u' :: a :: b :: c :: d :: cs =>
      match fourHex? a b c d with
      | none => .stop flaw (.same (shortHexError (offset + 2) (a :: b :: c :: d :: cs)))
      | some n =>
        let lone : Option Error := flaw <|> some (.at .loneSurrogate (offset + 6))
        match high with
        | some h =>
          if isLowSurrogate n then scanString (ofSurrogates h n :: done) none flaw (offset + 6) cs
          else scanString done none lone (offset + 6) cs
        | none =>
          if isLowSurrogate n then scanString done none lone (offset + 6) cs
          else if isHighSurrogate n then scanString done (some n) flaw (offset + 6) cs
          else scanString (Char.ofNat n :: done) none flaw (offset + 6) cs
    | 'u' :: cs => .stop flaw (.same (shortHexError (offset + 2) cs))
    | c :: cs =>
      let flaw := flaw <|> high.map fun _ => .at .unfinishedSurrogate (offset + 2)
      match shortEscape? c with
      | some e => scanString (e :: done) none flaw (offset + 2) cs
      | none => .stop flaw (.same (.at .invalidEscape (offset + 2)))
  | c :: cs =>
    let flaw := flaw <|> high.map fun _ => .at .unfinishedSurrogate (offset + 1)
    if c.toNat < 0x20 then
      .stop flaw ⟨.at .controlCharacter (offset + 1), .at .controlCharacter offset⟩
    else scanString (c :: done) none flaw (offset + c.utf8Size) cs

/-- The string whose opening quote is at the cursor. -/
def readString (k : Cursor) : Tree × Next :=
  let scan := scanString [] none none (k.offset + 1) (k.rest.drop 1)
  match scan.content, scan.next with
  | .ok s, .ok next => (.atom k.offset next.offset (.string s), .ok next)
  | .ok _, .error fault =>
    (.malformed k.offset false fault.reading (some fault.skipping), .error fault)
  | .error e, .ok next => (.malformed k.offset false e none, .ok next)
  | .error e, .error fault => (.malformed k.offset false e (some fault.skipping), .error fault)

/-! Names and numbers -/

/-- A name or number stops with an error. -/
def stopWord (start : Nat) (fault : Fault) : Tree × Next :=
  (.malformed start true fault.reading (some fault.skipping), .error fault)

/-- Passes over the letters of a name, one byte each. -/
def scanName (offset : Nat) : List Char → List Char → Except Error Cursor
  | [], cs => .ok ⟨offset, cs⟩
  | _ :: _, [] => .error (.at .endInValue offset)
  | e :: es, c :: cs =>
    if c = e then scanName (offset + 1) es cs else .error (.at .expectedWord (offset + 1))

def readName (k : Cursor) (name : List Char) (value : Atom) : Tree × Next :=
  match scanName k.offset name k.rest with
  | .ok next => (.atom k.offset next.offset value, .ok next)
  | .error e => stopWord k.offset (.same e)

def maxSignificand : Nat := UInt64.size - 1

def digitValue (c : Char) : Nat := c.toNat - '0'.toNat

/-- The whole digits as a number of 64 bits, and how many digits at its end did not fit. -/
def wholeDigits (digits : List Char) : Nat × Nat :=
  digits.foldl (fun (n, dropped) c =>
    let m := n * 10 + digitValue c
    if dropped = 0 && m ≤ maxSignificand then (m, 0) else (n, dropped + 1)) (0, 0)

/-- Goes on with the digits after the point while they fit, and counts them. -/
def fractionDigits (n taken : Nat) : List Char → Nat × Nat
  | [] => (n, taken)
  | c :: cs =>
    let m := n * 10 + digitValue c
    if m ≤ maxSignificand then fractionDigits m (taken + 1) cs else (n, taken)

def maxExponent : Nat := Nat.pow 2 31 - 1

/-- The value of an exponent, or how many digits show that it is too large. -/
def exponentDigits (e taken : Nat) : List Char → Except Nat Nat
  | [] => .ok e
  | c :: cs =>
    let f := e * 10 + digitValue c
    if f ≤ maxExponent then exponentDigits f (taken + 1) cs else .error (taken + 1)

structure Exponent where
  isNegative : Bool
  digits : List Char
  /-- Where the digits begin. -/
  start : Nat

/-- The digits after a point at the cursor, when there is one. -/
def scanFraction (k : Cursor) : Except Fault (Option (List Char) × Cursor) :=
  match k.rest with
  | '.' :: cs =>
    let digits := cs.takeWhile Char.isDigit
    let next := k.advance 1
    if digits.isEmpty then
      let cause : Cause := if cs.isEmpty then .endInValue else .invalidNumber
      .error ⟨next.fail cause, next.fail .invalidNumber⟩
    else .ok (some digits, next.advance digits.length)
  | _ => .ok (none, k)

/-- The exponent at the cursor, when there is one. -/
def scanExponent (k : Cursor) : Except Fault (Option Exponent × Cursor) :=
  let body (isNegative : Bool) (k : Cursor) :=
    match k.rest with
    | [] => .error ⟨.at .endInValue k.offset, .at .invalidNumber k.offset⟩
    | c :: _ =>
      let digits := k.rest.takeWhile Char.isDigit
      if c.isDigit then .ok (some ⟨isNegative, digits, k.offset⟩, k.advance digits.length)
      else .error (.same (.at .invalidNumber (k.offset + 1)))
  match k.rest with
  | c :: cs =>
    if c = 'e' || c = 'E' then
      match cs with
      | '+' :: _ => body false (k.advance 2)
      | '-' :: _ => body true (k.advance 2)
      | _ => body false (k.advance 1)
    else .ok (none, k)
  | [] => .ok (none, k)

/-- A whole number of digits without a point or exponent. Zero has no negative. -/
def wholeNumber (isNegative : Bool) (n dropped : Nat) : Number :=
  if dropped ≠ 0 then .decimal ⟨isNegative, n, dropped⟩
  else if !isNegative then .natural n
  else if 0 < n && n ≤ Nat.pow 2 63 then .negative n
  else .decimal ⟨true, n, 0⟩

/-- The number that the scanned digits stand for; `stop` is where they end. -/
def numberOf (isNegative : Bool) (whole : List Char) (fraction : Option (List Char))
    (exponent : Option Exponent) (stop : Nat) : Except Error Number :=
  let (n, dropped) := wholeDigits whole
  let finite (d : TemplateLint.Number.Decimal) : Except Error Number :=
    if d.isFinite then .ok (.decimal d) else .error (.at .numberOutOfRange stop)
  let (m, taken) := fractionDigits n 0 (fraction.getD [])
  let shift : Int := (dropped : Int) - taken
  match exponent with
  | none =>
    if fraction.isNone && dropped = 0 then .ok (wholeNumber isNegative n 0)
    else finite ⟨isNegative, m, shift⟩
  | some e =>
    match exponentDigits 0 0 e.digits with
    | .ok p => finite ⟨isNegative, m, if e.isNegative then shift - p else shift + p⟩
    | .error digits =>
      if m = 0 || e.isNegative then .ok (.decimal ⟨isNegative, 0, 0⟩)
      else .error (.at .numberOutOfRange (e.start + digits))

/-- The number at the cursor, which is at a digit or a minus sign. -/
def readNumber (start : Cursor) : Tree × Next :=
  let isNegative := start.rest.head? = some '-'
  let k := if isNegative then start.advance 1 else start
  match k.rest with
  | [] => stopWord start.offset ⟨.at .endInValue k.offset, .at .invalidNumber k.offset⟩
  | c :: cs =>
    if !c.isDigit then stopWord start.offset (.same (.at .invalidNumber (k.offset + 1)))
    else if c = '0' && (cs.head?.any Char.isDigit) then
      stopWord start.offset (.same (.at .invalidNumber (k.offset + 2)))
    else
      let whole := k.rest.takeWhile Char.isDigit
      match scanFraction (k.advance whole.length) with
      | .error fault => stopWord start.offset fault
      | .ok (fraction, k) =>
        match scanExponent k with
        | .error fault => stopWord start.offset fault
        | .ok (exponent, k) =>
          match numberOf isNegative whole fraction exponent k.offset with
          | .ok n => (.atom start.offset k.offset (.number n), .ok k)
          | .error e => (.malformed start.offset true e none, .ok k)

/-! Trees -/

/-- Past the blanks after a key, and past a closing brace there. -/
def resumeAfterKey (k : Cursor) : Nat :=
  let k := k.skipBlanks
  match k.rest with
  | '\x7d' :: _ => k.offset + 1
  | _ => k.offset

mutual

/-- The value after the blanks at the cursor. The fuel bounds the depth of the recursion, and
twice the length of the text is enough. -/
def readTree : Nat → Cursor → Tree × Next
  | 0, k =>
    let e := k.fail .endInValue
    (.malformed k.offset false e (some e), .error (.same e))
  | fuel + 1, k =>
    let k := k.skipBlanks
    match k.rest with
    | [] =>
      let e := k.fail .endInValue
      (.malformed k.offset false e (some e), .error (.same e))
    | c :: _ =>
      match c with
      | '[' =>
        let (items, next) := readItems fuel true (k.advance 1)
        (.array k.offset items, next)
      | '\x7b' =>
        let (members, next) := readMembers fuel true (k.advance 1)
        (.object k.offset members, next)
      | '"' => readString k
      | 'n' => readName k "null".toList .null
      | 't' => readName k "true".toList (.boolean true)
      | 'f' => readName k "false".toList (.boolean false)
      | _ =>
        if c = '-' || c.isDigit then readNumber k
        else
          let e := k.fail .expectedValue
          (.malformed k.offset false e (some e), .error (.same e))

/-- The rest of an array; `isFirst` when nothing has come after its bracket. -/
def readItems : Nat → Bool → Cursor → Items × Next
  | 0, _, k =>
    let fault := Fault.same (k.fail .endInList)
    (.fault k.offset fault, .error fault)
  | fuel + 1, isFirst, k =>
    let k := k.skipBlanks
    let stop (k : Cursor) (fault : Fault) : Items × Next := (.fault k.offset fault, .error fault)
    let item (k : Cursor) : Items × Next :=
      match readTree fuel k with
      | (value, .ok next) =>
        let (rest, next) := readItems fuel false next
        (.item k.offset value rest, next)
      | (value, .error fault) => (.item k.offset value (.fault k.offset fault), .error fault)
    match k.rest with
    | [] => stop k (.same (k.fail .endInList))
    | ']' :: _ => (.close (k.offset + 1), .ok (k.advance 1))
    | c :: _ =>
      if isFirst then item k
      else if c = ',' then
        let k := (k.advance 1).skipBlanks
        match k.rest with
        | [] => stop k (.same (k.fail .endInValue))
        | ']' :: _ => stop k ⟨k.fail .trailingComma, k.fail .expectedValue⟩
        | _ => item k
      else stop k (.same (k.fail .expectedListSeparator))

/-- The rest of an object; `isFirst` when nothing has come after its brace. -/
def readMembers : Nat → Bool → Cursor → Members × Next
  | 0, _, k =>
    let e := k.fail .endInObject
    (.fault k.offset (.malformed k.offset false e (some e)) (.same e), .error (.same e))
  | fuel + 1, isFirst, k =>
    let k := k.skipBlanks
    let lead := k.offset
    let stop (k : Cursor) (fault : Fault) : Members × Next :=
      (.fault lead (readTree fuel k).1 fault, .error fault)
    let member (k : Cursor) : Members × Next :=
      match readString k with
      | (key, .error fault) => (.fault lead key fault, .error fault)
      | (key, .ok afterKey) =>
        let resume := resumeAfterKey afterKey
        let k := afterKey.skipBlanks
        match k.rest with
        | ':' :: _ =>
          match readTree fuel (k.advance 1) with
          | (value, .ok next) =>
            let (rest, next) := readMembers fuel false next
            (.member lead key resume value rest, next)
          | (value, .error fault) =>
            (.member lead key resume value (.fault k.offset value fault), .error fault)
        | cs =>
          let e := k.fail (if cs.isEmpty then .endInObject else .expectedColon)
          let value := .malformed k.offset false e (some e)
          (.member lead key resume value (.fault k.offset value (.same e)), .error (.same e))
    match k.rest with
    | [] => stop k (.same (k.fail .endInObject))
    | '\x7d' :: _ => (.close (k.offset + 1), .ok (k.advance 1))
    | c :: _ =>
      if isFirst then
        if c = '"' then member k else stop k (.same (k.fail .keyNotString))
      else if c = ',' then
        let k := (k.advance 1).skipBlanks
        match k.rest with
        | [] => stop k ⟨k.fail .endInValue, k.fail .endInObject⟩
        | '"' :: _ => member k
        | '\x7d' :: _ => stop k ⟨k.fail .trailingComma, k.fail .keyNotString⟩
        | _ => stop k (.same (k.fail .keyNotString))
      else stop k (.same (k.fail .expectedObjectSeparator))

end

/-- The value that a text begins with. -/
def Tree.ofString (s : String) : Tree × Next := readTree (2 * s.length + 2) (.ofString s)

/-! Passing over, and reading a value whole -/

mutual

/-- The error that stops one who passes over the value. -/
def Tree.skipError? : Tree → Option Error
  | .atom .. => none
  | .malformed _ _ _ skipping => skipping
  | .array _ items => items.skipError?
  | .object _ members => members.skipError?

def Items.skipError? : Items → Option Error
  | .close _ => none
  | .item _ value rest => value.skipError? <|> rest.skipError?
  | .fault _ fault => some fault.skipping

def Members.skipError? : Members → Option Error
  | .close _ => none
  | .member _ key _ value rest => key.skipError? <|> value.skipError? <|> rest.skipError?
  | .fault _ _ fault => some fault.skipping

end

mutual

/-- The first error for one who reads the whole value, with room for so many open brackets. -/
def Tree.readError? (room : Nat) : Tree → Option Error
  | .atom .. => none
  | .malformed _ _ reading _ => some reading
  | .array start items =>
    if room = 0 then some (.at .tooDeep (start + 1)) else items.readError? (room - 1)
  | .object start members =>
    if room = 0 then some (.at .tooDeep (start + 1)) else members.readError? (room - 1)

def Items.readError? (room : Nat) : Items → Option Error
  | .close _ => none
  | .item _ value rest => value.readError? room <|> rest.readError? room
  | .fault _ fault => some fault.reading

def Members.readError? (room : Nat) : Members → Option Error
  | .close _ => none
  | .member _ key _ value rest =>
    key.readError? room <|> value.readError? room <|> rest.readError? room
  | .fault _ _ fault => some fault.reading

end

end TemplateLint.Json
