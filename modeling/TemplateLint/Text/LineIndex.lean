import TemplateLint.Text.Slice

/-!
Line and column of a byte offset. Lines end at `\n`, columns count characters, and both start
at one.
-/

namespace TemplateLint.Text

/-- Byte offsets just after each line break, for a text that begins at `offset`. -/
def lineStartsFrom (offset : Nat) : List Char → List Nat
  | [] => []
  | c :: cs =>
    let next := offset + c.utf8Size
    if c = '\n' then next :: lineStartsFrom next cs else lineStartsFrom next cs

structure LineIndex where
  text : List Char
  /-- Where each line begins, in ascending order; the first entry is zero. -/
  starts : List Nat
deriving Repr, DecidableEq

namespace LineIndex

def ofText (text : List Char) : LineIndex := ⟨text, 0 :: lineStartsFrom 0 text⟩

def ofString (s : String) : LineIndex := ofText s.toList

def lineCount (index : LineIndex) : Nat := index.starts.length

/-- Line and column of a byte offset. An offset past the end counts as the end; inside a
character the column counts bytes. -/
def lineColumn (index : LineIndex) (offset : Nat) : Nat × Nat :=
  let stop := min offset (byteLength index.text)
  let begun := index.starts.takeWhile (· ≤ stop)
  let start := begun.getLastD 0
  let column :=
    match slice? index.text start stop with
    | some cs => cs.length
    | none => stop - start
  (begun.length, column + 1)

end LineIndex

end TemplateLint.Text
