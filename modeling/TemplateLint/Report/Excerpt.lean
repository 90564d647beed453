import TemplateLint.Text.Slice

/-!
The part of a text around a range of bytes: the range itself, or the range with whole lines before
and after it. Lines end at `\n`, `\r\n` or a `\r` that stands alone.
-/

namespace TemplateLint.Report

/-- A text as its reader counts it: bytes, and line breaks of one or two bytes. -/
inductive Mark where
  | byte
  | lineBreak (length : Nat)
deriving Repr, DecidableEq

def marks : List Char → List Mark
  | [] => []
  | '\r' :: '\n' :: cs => .lineBreak 2 :: marks cs
  | c :: cs =>
    if c = '\r' || c = '\n' then .lineBreak 1 :: marks cs
    else List.replicate c.utf8Size .byte ++ marks cs

/-- What is wanted: `length` bytes from `start` on, and so many lines before and after them. -/
structure Request where
  start : Nat
  length : Nat
  before : Nat
  after : Nat

/-- The last byte of the range, or the place of an empty one. -/
def Request.last (r : Request) : Nat := r.start + r.length - 1

/-- How far a reader has come. -/
structure Progress where
  offset : Nat
  /-- Line of the excerpt, and column of its start. -/
  line : Nat
  column : Nat
  /-- Lines seen after the range. -/
  linesAfter : Nat
  /-- Where the current line begins, and the lines before the range that are kept. -/
  lineStart : Nat
  kept : List Nat
  /-- The end of the range has been passed; a line break after that has been seen. -/
  past : Bool
  pastBreak : Bool

def Progress.start : Progress := ⟨0, 0, 0, 0, 0, [], false, false⟩

namespace Progress

/-- Whether enough lines after the range have been seen. -/
def isEnough (p : Progress) (r : Request) : Bool := r.after ≤ p.linesAfter

/-- A line break before the range: its line is kept, and the first of too many is dropped. -/
def keepLine (p : Progress) (r : Request) : Progress :=
  let kept := p.kept ++ [p.lineStart]
  if r.before < kept.length then
    { p with column := 0, kept := kept.tail, line := p.line + 1 }
  else { p with column := 0, kept }

/-- A line break after the range. -/
def countLine (p : Progress) : Progress :=
  let p := { p with column := 0 }
  if p.pastBreak then { p with linesAfter := p.linesAfter + 1 } else { p with pastBreak := true }

/-- One byte further. -/
def next (p : Progress) : Progress := { p with offset := p.offset + 1 }

/-- The end of a mark: notices the end of the range, and tells whether to stop. -/
def endMark (p : Progress) (r : Request) : Progress × Bool :=
  if r.last ≤ p.offset then
    let p := { p with past := true }
    (p.next, p.isEnough r)
  else (p.next, false)

/-- One mark further, and whether to stop there. -/
def step (p : Progress) (r : Request) : Mark → Progress × Bool
  | .byte => (if p.offset < r.start then { p with column := p.column + 1 } else p).endMark r
  | .lineBreak length =>
    let p := { p with offset := p.offset + (length - 1) }
    if p.offset < r.start then
      let p := p.keepLine r
      { p with lineStart := p.offset + 1 }.endMark r
    else if r.start + (r.length - 1) ≤ p.offset && p.past then
      let p := p.countLine
      if p.isEnough r then (p.next, true) else { p with lineStart := p.offset + 1 }.endMark r
    else { p with lineStart := p.offset + 1 }.endMark r

/-- As far as the excerpt reaches. -/
def run (r : Request) (p : Progress) : List Mark → Progress
  | [] => p
  | m :: ms =>
    let (p, isEnd) := p.step r m
    if isEnd then p else run r p ms

end Progress

/-- An excerpt with the place where it begins. Line and column count from zero, columns in
bytes. -/
structure Excerpt where
  start : Nat
  stop : Nat
  line : Nat
  column : Nat
deriving Repr, DecidableEq

/-- The excerpt; nothing when the range is not inside the text. -/
def excerpt? (text : List Char) (r : Request) : Option Excerpt :=
  let p := Progress.run r .start (marks text)
  if r.last ≤ p.offset then
    let start := p.kept.headD (if r.before = 0 then r.start else 0)
    some ⟨start, p.offset, p.line, if r.before = 0 then p.column else 0⟩
  else none

/-- A line of an excerpt: its number, the bytes it takes with its line break, and its text. -/
structure Line where
  number : Nat
  start : Nat
  length : Nat
  text : List Char
deriving Repr, DecidableEq

/-- Cuts a text into lines. `line` lines have ended before, `text` is the current line so far,
last character first; it begins at `start`, and the rest at `offset`. -/
def linesFrom (line start offset : Nat) (text : List Char) : List Char → List Line
  | [] => []
  | '\r' :: '\n' :: cs =>
    let stop := offset + 2
    ⟨line + 1, start, stop - start, text.reverse⟩ :: linesFrom (line + 1) stop stop [] cs
  | '\n' :: cs =>
    let stop := offset + 1
    ⟨line + 1, start, stop - start, text.reverse⟩ :: linesFrom (line + 1) stop stop [] cs
  | ['\r'] => [⟨line, start, offset + 1 - start, ('\r' :: text).reverse⟩]
  | [c] => [⟨line + 1, start, offset + c.utf8Size - start, (c :: text).reverse⟩]
  | c :: cs => linesFrom line start (offset + c.utf8Size) (c :: text) cs

def Excerpt.lines (e : Excerpt) (text : List Char) : List Line :=
  linesFrom e.line e.start e.start [] ((Text.slice? text e.start e.stop).getD [])

end TemplateLint.Report
