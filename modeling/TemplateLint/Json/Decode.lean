import TemplateLint.Json.Tree

/-!
Reading values of given types off a JSON tree.

A value is read either straight from the text, where every error knows its place and open brackets
are counted, or out of a value that has been read whole before, where errors have no place of their
own. A record is described once, by its table of fields, and can be read from an object with its
members in any order or from an array in the order of the table.
-/

namespace TemplateLint.Json

/-- Where a value is read from. -/
inductive Medium where
  /-- The text itself, with room for so many more open brackets. -/
  | text (room : Nat)
  /-- A value that has been read whole. -/
  | buffer
deriving Repr, DecidableEq

/-- The offset of an error, in a medium where errors know their place. -/
def Medium.at (m : Medium) (offset : Nat) : Option Nat :=
  match m with
  | .text _ => some offset
  | .buffer => none

/-- The medium inside a bracket that stands at `start`. -/
def Medium.enter (m : Medium) (start : Nat) : Except Error Medium :=
  match m with
  | .text 0 => .error (.at .tooDeep (start + 1))
  | .text (room + 1) => .ok (.text room)
  | .buffer => .ok .buffer

/-- Gives an error its place, unless it has one. -/
def Error.placed (e : Error) (offset : Option Nat) : Error := ⟨e.cause, e.offset <|> offset⟩

abbrev Decoder (α : Type) := Medium → Tree → Except Error α

def Atom.found : Atom → Found
  | .null => .null
  | .boolean b => .boolean b
  | .number n => .number n
  | .string s => .string s

/-- The error for a value that is not what was wanted. -/
def Tree.mismatch (m : Medium) (expected : Expected) : Tree → Error
  | .atom _ stop value => ⟨.wrongType value.found expected, m.at stop⟩
  | .malformed _ _ reading _ => reading
  | .array start _ => ⟨.wrongType .sequence expected, m.at start⟩
  | .object start _ => ⟨.wrongType .map expected, m.at start⟩

/-- Passes over a value that nothing is read from. -/
def Tree.ignore (m : Medium) (t : Tree) : Except Error Unit :=
  match m with
  | .text _ =>
    match t.skipError? with
    | some e => .error e
    | none => .ok ()
  | .buffer => .ok ()

/-- Reads a value whole, so that it can be read from the buffer. -/
def Tree.takeIn (m : Medium) (t : Tree) : Except Error Unit :=
  match m with
  | .text room =>
    match t.readError? room with
    | some e => .error e
    | none => .ok ()
  | .buffer => .ok ()

/-! Simple values -/

namespace Decode

def string : Decoder String := fun m t =>
  match t with
  | .atom _ _ (.string s) => .ok s
  | t => .error (t.mismatch m .string)

def natural32 : Decoder UInt32 := fun m t =>
  match t with
  | .atom _ stop (.number (.natural n)) =>
    if n < UInt32.size then .ok n.toUInt32
    else .error ⟨.wrongValue (.number (.natural n)) .natural32, m.at stop⟩
  | .atom _ stop (.number (.negative n)) =>
    .error ⟨.wrongValue (.number (.negative n)) .natural32, m.at stop⟩
  | t => .error (t.mismatch m .natural32)

/-- `null` stands for nothing. -/
def optional {α : Type} (d : Decoder α) : Decoder (Option α) := fun m t =>
  match t with
  | .atom _ _ .null => .ok none
  | t => (d m t).map some

/-- A name from a table. -/
def named {α : Type} (names : List (String × α)) (offset : Option Nat) (s : String) :
    Except Error α :=
  match names.lookup s with
  | some a => .ok a
  | none => .error ⟨.unknownVariant s (names.map Prod.fst), offset⟩

/-- The tag of a choice. In the buffer a number stands for the place in the table. -/
def tag {α : Type} (names : List (String × α)) : Decoder α := fun m t =>
  match t with
  | .atom _ stop (.string s) => named names (m.at stop) s
  | .atom _ stop (.number (.natural n)) =>
    match m with
    | .text _ => .error (t.mismatch m .variantName)
    | .buffer =>
      match names[n]? with
      | some (_, a) => .ok a
      | none => .error ⟨.wrongValue (.number (.natural n)) (.variantIndex names.length), m.at stop⟩
  | t => .error (t.mismatch m .variantName)

/-- The value beside a name that is written as a member: nothing, or in the buffer also an empty
object. -/
def nothing : Decoder Unit := fun m t =>
  match m, t with
  | _, .atom _ _ .null => .ok ()
  | .buffer, .object _ (.close _) => .ok ()
  | m, t => .error (t.mismatch m .unit)

/-- The object form of a name, read from the text: one member with no value. -/
def singleEntry {α : Type} (names : List (String × α)) (m : Medium) : Members → Except Error α
  | .close stop => .error (.at .expectedValue stop)
  | .fault _ found _ => .error (found.mismatch m .variantName)
  | .member _ key _ value rest => do
    let a ← tag names m key
    nothing m value
    match rest with
    | .close _ => return a
    | .member lead .. => throw (.at .expectedValue lead)
    | .fault lead _ e =>
      throw (if e.reading.cause = .endInObject then e.reading
        else .at .expectedValue lead)

/-- The object form of a name, in the buffer. -/
def bufferedEntry {α : Type} (names : List (String × α)) (m : Medium) : Members → Except Error α
  | .member _ key _ value (.close _) => do
    let a ← tag names m key
    nothing m value
    return a
  | _ => .error ⟨.wrongValue .map .singleEntry, none⟩

/-- One of a table of names, written as a string or as an object with one member. -/
def choice {α : Type} (names : List (String × α)) : Decoder α := fun m t =>
  match m, t with
  | m, .atom _ stop (.string s) => named names (m.at stop) s
  | .text _, .atom start .. => .error (.at .expectedValue (start + 1))
  | .text _, .malformed start true _ _ => .error (.at .expectedValue (start + 1))
  | .text _, .array start _ => .error (.at .expectedValue (start + 1))
  | .text _, .object start members => do singleEntry names (← m.enter start) members
  | .buffer, .object _ members => bufferedEntry names m members
  | m, t => .error (t.mismatch m .stringOrMap)

end Decode

/-! Lists and maps -/

/-- Where a reader that gives up at this point of an array stands. -/
def Items.resume : Items → Nat
  | .close stop => stop
  | .item start _ _ => start
  | .fault resume _ => resume

/-- Reads every item. An error without a place gets the place after the item. -/
def Items.readAll {α : Type} (d : Decoder α) (m : Medium) : Items → Except Error (List α)
  | .close _ => .ok []
  | .fault _ e => .error e.reading
  | .item _ value rest =>
    match d m value with
    | .error e => .error (e.placed (m.at rest.resume))
    | .ok a => (rest.readAll d m).map (a :: ·)

/-- Reads every member, in the order of the text. -/
def Members.readAll {α : Type} (d : Decoder α) (m : Medium) :
    Members → Except Error (List (String × α))
  | .close _ => .ok []
  | .fault _ _ e => .error e.reading
  | .member _ key _ value rest => do
    let name ← Decode.string m key
    let a ← d m value
    return (name, a) :: (← rest.readAll d m)

namespace Decode

def list {α : Type} (d : Decoder α) : Decoder (List α) := fun m t =>
  match t with
  | .array start items => do items.readAll d (← m.enter start)
  | t => .error (t.mismatch m .sequence)

/-- The members of an object by name, with the last value of each name. -/
def map {α : Type} (d : Decoder α) : Decoder (List (String × α)) := fun m t =>
  match t with
  | .object start members => do
    let entries ← members.readAll d (← m.enter start)
    return entries.foldl (fun all (name, a) => all.filter (·.1 ≠ name) ++ [(name, a)]) []
  | t => .error (t.mismatch m .map)

end Decode

/-! Records -/

/-- The table of the fields of a record, with the values read so far. A field that may be missing
has a fallback. -/
inductive Fields : Type → Type 1 where
  | done {α : Type} (value : α) : Fields α
  | field {α β : Type} (before : Fields (β → α)) (name : String) (decode : Decoder β)
      (fallback : Option β) (read : Option β) : Fields α

namespace Fields

/-- Adds a field that has to be present. -/
def required {α β : Type} (before : Fields (β → α)) (name : String) (d : Decoder β) : Fields α :=
  .field before name d none none

/-- Adds a field that may be missing. -/
def optional {α β : Type} (before : Fields (β → α)) (name : String) (d : Decoder β)
    (fallback : β) : Fields α :=
  .field before name d (some fallback) none

def count {α : Type} : Fields α → Nat
  | .done _ => 0
  | .field before _ _ _ _ => before.count + 1

/-- Reads the value of the named field; nothing when the table has no such field. `twice` is the
offset of the error when the field has been read before. -/
def accept {α : Type} (m : Medium) (key : String) (twice : Option Nat) (value : Tree) :
    Fields α → Option (Except Error (Fields α))
  | .done _ => none
  | .field before name d fallback read =>
    if name = key then
      some <| match read with
        | some _ => .error ⟨.duplicateField name, twice⟩
        | none =>
          match d m value with
          | .ok b => .ok (.field before name d fallback (some b))
          | .error e => .error e
    else
      match before.accept m key twice value with
      | none => none
      | some (.error e) => some (.error e)
      | some (.ok before) => some (.ok (.field before name d fallback read))

/-- The record, once all of its object has been read. `offset` is the place of an error. -/
def finish {α : Type} (offset : Option Nat) : Fields α → Except Error α
  | .done value => .ok value
  | .field before name _ fallback read => do
    let f ← before.finish offset
    match read <|> fallback with
    | some b => return f b
    | none => throw ⟨.missingField name, offset⟩

/-- Reads the fields in the order of the table, and returns the items left over. `total` is the
number of fields of the record called `record`. -/
def ofItems {α : Type} (m : Medium) (record : String) (total : Nat) (items : Items) :
    Fields α → Except Error (α × Items)
  | .done value => .ok (value, items)
  | .field before _ d fallback _ => do
    let (f, items) ← before.ofItems m record total items
    match items with
    | .item _ value rest =>
      match d m value with
      | .ok b => return (f b, rest)
      | .error e => throw (e.placed (m.at rest.resume))
    | .close stop =>
      match fallback with
      | some b => return (f b, items)
      | none => throw ⟨.wrongLength before.count (.recordOf record total), m.at stop⟩
    | .fault _ e => throw e.reading

/-- Reads the fields off an object. -/
def ofMembers {α : Type} (m : Medium) : Members → Fields α → Except Error α
  | .close stop, fields => fields.finish (m.at stop)
  | .fault _ _ e, _ => .error e.reading
  | .member _ key resume value rest, fields =>
    match Decode.string m key with
    | .error e => .error e
    | .ok name =>
      match fields.accept m name (m.at resume) value with
      | some (.error e) => .error e
      | some (.ok fields) => ofMembers m rest fields
      | none =>
        match value.ignore m with
        | .error e => .error e
        | .ok () => ofMembers m rest fields

end Fields

def Items.length : Items → Nat
  | .item _ _ rest => rest.length + 1
  | _ => 0

/-- Nothing may follow the fields of a record in its array. -/
def Items.finish (m : Medium) (count : Nat) (items : Items) : Except Error Unit :=
  match m, items with
  | _, .close _ => .ok ()
  | .text _, .item start _ _ => .error (.at .trailingCharacters (start + 1))
  | .buffer, .item .. => .error ⟨.wrongLength (count + items.length) (.elements count), none⟩
  | _, .fault _ e =>
    match e.reading.cause with
    | .expectedListSeparator | .endInValue => .error ⟨.trailingCharacters, e.reading.offset⟩
    | _ => .error e.reading

/-- The inside of the brackets of a record. -/
inductive Body where
  | items (items : Items)
  | members (members : Members)

/-- Reads a record off the inside of its brackets. -/
def Fields.ofBody {α : Type} (fields : Fields α) (record : String) (m : Medium) :
    Body → Except Error α
  | .members members => fields.ofMembers m members
  | .items items => do
    let (a, rest) ← fields.ofItems m record fields.count items
    rest.finish m fields.count
    return a

namespace Decode

def record {α : Type} (name : String) (fields : Fields α) : Decoder α := fun m t =>
  match t with
  | .object start members => do fields.ofBody name (← m.enter start) (.members members)
  | .array start items => do fields.ofBody name (← m.enter start) (.items items)
  | t => .error (t.mismatch m (.record name))

end Decode

/-! Records of several kinds, told apart by a tag -/

/-- Finds the tag among the members, and reads the others whole. -/
def Members.findTag {α : Type} (field : String) (names : List (String × α)) (m : Medium)
    (known : Option α) : Members → Except Error α
  | .close stop =>
    match known with
    | some a => .ok a
    | none => .error ⟨.missingField field, m.at stop⟩
  | .fault _ _ e => .error e.reading
  | .member _ key resume value rest => do
    let name ← Decode.string m key
    if name = field then
      match known with
      | some _ => throw ⟨.duplicateField field, m.at resume⟩
      | none =>
        let a ← Decode.tag names m value
        rest.findTag field names m (some a)
    else
      value.takeIn m
      rest.findTag field names m known

/-- Reads the items whole. -/
def Items.takeIn (m : Medium) (items : Items) : Except Error Unit :=
  match m with
  | .text room =>
    match items.readError? room with
    | some e => .error e
    | none => .ok ()
  | .buffer => .ok ()

/-- The tag and the body of a tagged record. In an array the tag is the first item. -/
def Tree.splitTag {α : Type} (choice field : String) (names : List (String × α)) (m : Medium) :
    Tree → Except Error (α × Body)
  | .object start members => do
    let a ← members.findTag field names (← m.enter start) none
    return (a, .members members)
  | .array start items => do
    let m ← m.enter start
    match items with
    | .close stop => throw ⟨.missingField field, m.at stop⟩
    | .fault _ e => throw e.reading
    | .item _ value rest =>
      let a ← Decode.tag names m value
      rest.takeIn m
      return (a, .items rest)
  | t => .error (t.mismatch m (.taggedChoice choice))

/-! Texts -/

/-- How many arrays and objects may be open at once. -/
def maxDepth : Nat := 127

/-- Reads a text that is one value and nothing else but blanks. -/
def decode {α : Type} (d : Decoder α) (s : String) : Except Error α := do
  let (tree, next) := Tree.ofString s
  let a ← d (.text maxDepth) tree
  match next with
  | .error fault => throw fault.reading
  | .ok k =>
    let k := k.skipBlanks
    if k.rest.isEmpty then return a else throw (k.fail .trailingCharacters)

end TemplateLint.Json
