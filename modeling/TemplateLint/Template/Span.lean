import TemplateLint.Text.LineIndex

/-!
Places in a template, and the pieces of template text between two of them.
-/

namespace TemplateLint

structure Position where
  /-- Bytes from the start of the template. -/
  offset : UInt32
  /-- Line and column count from one; zero when they are not known. -/
  line : UInt32
  column : UInt32
deriving Repr, DecidableEq, Inhabited

/-- A piece of a template, with the text that it covers. -/
structure SourceSpan where
  start : Position
  stop : Position
  source : String
deriving Repr, DecidableEq, Inhabited

namespace SourceSpan

/-- The span of a node that stands for no text. -/
def stub : SourceSpan := ⟨⟨0, 1, 1⟩, ⟨0, 1, 1⟩, ""⟩

/-- The position at a byte offset of the indexed text. -/
def positionAt (index : Text.LineIndex) (offset : UInt32) : Position :=
  let (line, column) := index.lineColumn offset.toNat
  ⟨offset, line.toUInt32, column.toUInt32⟩

/-- The span over a range of a template; nothing when the range cannot be cut out. -/
def ofTemplate? (template : String) (start stop : UInt32) : Option SourceSpan :=
  (Text.slice? template.toList start.toNat stop.toNat).map fun text =>
    let index := Text.LineIndex.ofString template
    ⟨positionAt index start, positionAt index stop, String.ofList text⟩

/-- Length in bytes; zero when the span ends before it starts. -/
def length (s : SourceSpan) : Nat := s.stop.offset.toNat - s.start.offset.toNat

def isEmpty (s : SourceSpan) : Bool := s.length = 0

end SourceSpan

end TemplateLint
