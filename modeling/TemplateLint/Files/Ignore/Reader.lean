import TemplateLint.Files.Ignore.Pattern

/-!
Reading the patterns of an ignore file. A group in braces stands for its branches, so that one text
may stand for several patterns.
-/

namespace TemplateLint.Files

namespace IgnoreReader

def bytesOf (c : Char) : List UInt8 := String.utf8EncodeChar c

/-- The ranges of a class; a range may be drawn out further, and a dash at the end stands for
itself. Nothing when a range ends before it begins. -/
def charRanges? (low high : Char) : List Char → Option (List (Char × Char))
  | [] => some [(low, high)]
  | '-' :: [] => some [(low, high), ('-', '-')]
  | '-' :: c :: cs => if low ≤ c then charRanges? low c cs else none
  | c :: cs => (charRanges? c c cs).map ((low, high) :: ·)

/-- A range of characters as ranges of bytes: of several bytes only those beside the dash. -/
def byteRanges : Char × Char → List (UInt8 × UInt8)
  | (low, high) =>
    let single (b : UInt8) := (b, b)
    if low = high then (bytesOf low).map single
    else
      (bytesOf low).dropLast.map single ++
        ((bytesOf low).getLastD 0, (bytesOf high).headD 0) :: (bytesOf high).tail.map single

/-- What follows an opening bracket. -/
inductive Class where
  | closed (token : IgnoreToken) (rest : List Char)
  /-- The bracket stands for itself. -/
  | unclosed
  | malformed

/-- A closing bracket right at the start of the class belongs to it. -/
def readClass (cs : List Char) : Class :=
  let (isNegated, cs) := match cs with
    | '!' :: cs => (true, cs)
    | '^' :: cs => (true, cs)
    | cs => (false, cs)
  match cs with
  | [] => .unclosed
  | first :: cs =>
    match charRanges? first first (cs.takeWhile (· ≠ ']')) with
    | none => .malformed
    | some ranges =>
      match cs.dropWhile (· ≠ ']') with
      | [] => .unclosed
      | _ :: rest => .closed (.oneOf isNegated (ranges.flatMap byteRanges)) rest

end IgnoreReader

/-- A pattern on its way: the alternatives of the innermost branch, each from its last token to its
first, and for the groups around it what stands before the group and the branches that are
complete. -/
structure IgnoreReader where
  branch : List (List IgnoreToken)
  groups : List (List (List IgnoreToken) × List (List IgnoreToken))

namespace IgnoreReader

def start : IgnoreReader := ⟨[[]], []⟩

def push (r : IgnoreReader) (t : IgnoreToken) : IgnoreReader :=
  { r with branch := r.branch.map (t :: ·) }

def pushChar (r : IgnoreReader) (c : Char) : IgnoreReader :=
  (bytesOf c).foldl (fun r b => r.push (.byte b)) r

/-- Nothing stands in the branch so far. -/
def isFresh (r : IgnoreReader) : Bool := r.branch = [[]]

def openGroup (r : IgnoreReader) : IgnoreReader := ⟨[[]], (r.branch, []) :: r.groups⟩

def nextBranch? (r : IgnoreReader) : Option IgnoreReader :=
  match r.groups with
  | [] => none
  | (before, done) :: groups => some ⟨[[]], (before, done ++ r.branch) :: groups⟩

/-- Empty branches do not count, and a group without others stands for nothing. -/
def closeGroup? (r : IgnoreReader) : Option IgnoreReader :=
  match r.groups with
  | [] => none
  | (before, done) :: groups =>
    match (done ++ r.branch).filter (!·.isEmpty) with
    | [] => some ⟨before, groups⟩
    | branches => some ⟨before.flatMap fun b => branches.map (· ++ b), groups⟩

/-- Puts a token in the place of the separator before it. Where directories are skipped already,
nothing changes. -/
def replaceSeparator (t : IgnoreToken) : List IgnoreToken → List IgnoreToken
  | .leading :: ts => .leading :: ts
  | .below :: ts => .below :: ts
  | _ :: ts => t :: ts
  | [] => [t]

/-- Two stars, and what they take of the pattern after them. They skip directories only as a whole
segment. -/
def twoStars (r : IgnoreReader) (previous : Option Char) (rest : List Char) :
    IgnoreReader × Option Char × List Char :=
  let plain := ((r.push .many).push .many, some '*', rest)
  let skip (t : IgnoreToken) : IgnoreReader :=
    { r with branch := r.branch.map (replaceSeparator t) }
  if r.isFresh then
    match rest with
    | [] => (r.push .leading, some '*', [])
    | '/' :: rest => (r.push .leading, some '/', rest)
    | _ => plain
  else if previous ≠ some '/' then plain
  else
    match rest with
    | [] => (skip .below, some '*', [])
    | '/' :: rest => (skip .between, some '/', rest)
    | c :: _ =>
      if !r.groups.isEmpty && (c = ',' || c = '}') then (skip .below, some '*', rest) else plain

/-- Reads a pattern. The fuel is its length. -/
def read? : Nat → Bool → Option Char → IgnoreReader → List Char → Option IgnoreReader
  | _, _, _, r, [] => some r
  | 0, _, _, _, _ => none
  | fuel + 1, literalBrackets, previous, r, c :: cs =>
    match c with
    | '?' => read? fuel literalBrackets (some c) (r.push .any) cs
    | '*' =>
      match cs with
      | '*' :: cs =>
        let (r, previous, cs) := r.twoStars previous cs
        read? fuel literalBrackets previous r cs
      | _ => read? fuel literalBrackets (some c) (r.push .many) cs
    | '[' =>
      if literalBrackets then read? fuel true (some c) (r.pushChar c) cs
      else
        match readClass cs with
        | .closed token rest => read? fuel false (some ']') (r.push token) rest
        | .unclosed => read? fuel true (some c) (r.pushChar c) cs
        | .malformed => none
    | '{' => read? fuel literalBrackets (some c) r.openGroup cs
    | '}' => do read? fuel literalBrackets (some c) (← r.closeGroup?) cs
    | ',' => read? fuel literalBrackets (some c) (r.nextBranch?.getD (r.pushChar c)) cs
    | '\\' =>
      match cs with
      | [] => none
      | c :: cs => read? fuel literalBrackets (some c) (r.pushChar c) cs
    | c => read? fuel literalBrackets (some c) (r.pushChar c) cs

/-- The patterns that a text stands for. Nothing when a brace is not closed or not opened, when a
class is malformed, or when a backslash ends the text. -/
def patterns? (text : List Char) : Option (List IgnorePattern) := do
  let r ← read? text.length false none start text
  if r.groups.isEmpty then return r.branch.map List.reverse else none

end IgnoreReader

end TemplateLint.Files
