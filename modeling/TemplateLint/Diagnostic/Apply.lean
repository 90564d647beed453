import TemplateLint.Diagnostic.Basic
import TemplateLint.Text.Slice

/-!
Applying fixes to a text. One fix is applied edit by edit; the fixes of many diagnostics are chosen
first, in the order of the text, so that no edit touches an edit of an earlier fix.
-/

namespace TemplateLint

namespace TextEdit

/-- Two edits touch a common byte, or begin at the same place. -/
def overlaps (a b : TextEdit) : Bool :=
  (a.start < b.stop && b.start < a.stop) || a.start = b.start

/-- The edit's range can be cut out of the text. -/
def fits (e : TextEdit) (text : List Char) : Bool :=
  Text.isRange text e.start.toNat e.stop.toNat

/-- The text after the edit; nothing when the edit does not fit. -/
def applied? (e : TextEdit) (text : List Char) : Option (List Char) :=
  Text.replace? text e.start.toNat e.stop.toNat e.newText.toList

/-- Edits ordered from the end of the text to its start, so that an edit does not move those that
come after it. Edits with the same start keep their order. -/
def lastFirst (edits : List TextEdit) : List TextEdit :=
  edits.mergeSort fun a b => decide (b.start ≤ a.start)

/-- Applies the edits one after another; nothing when one of them does not fit the text that the
edits before it have left. -/
def applyAll? : List TextEdit → List Char → Option (List Char)
  | [], text => some text
  | e :: es, text => (applied? e text).bind (applyAll? es)

end TextEdit

namespace Fix

/-- Applies the edits of one fix, leaving out those that do not fit. -/
def apply (f : Fix) (source : String) : String :=
  String.ofList <| (TextEdit.lastFirst f.edits).foldl
    (fun text e => (TextEdit.applied? e text).getD text) source.toList

/-- Where a fix begins; a fix without edits comes last. -/
def firstStart (f : Fix) : Nat :=
  f.edits.foldl (fun least e => min least e.start.toNat) (UInt32.size - 1)

/-- The fix has edits, all of them fit the text, and none overlaps an edit of `taken`. -/
def isUsable (f : Fix) (source : List Char) (taken : List TextEdit) : Bool :=
  !f.edits.isEmpty &&
    f.edits.all fun e => e.fits source && taken.all fun other => !e.overlaps other

end Fix

/-- The fixes of the diagnostics in the order in which they are tried. -/
def fixesInOrder (diagnostics : List Diagnostic) : List Fix :=
  (diagnostics.filterMap Diagnostic.fix).mergeSort fun a b => decide (a.firstStart ≤ b.firstStart)

/-- Takes each fix that is usable beside the edits taken before it. -/
def takeFixes (source : List Char) : List TextEdit → List Fix → List Fix
  | _, [] => []
  | taken, f :: fs =>
    if f.isUsable source taken then f :: takeFixes source (taken ++ f.edits) fs
    else takeFixes source taken fs

/-- The fixes that are applied. -/
def acceptedFixes (source : List Char) (diagnostics : List Diagnostic) : List Fix :=
  takeFixes source [] (fixesInOrder diagnostics)

structure FixOutcome where
  output : String
  /-- How many fixes were applied, and how many were left out. -/
  applied : Nat
  skipped : Nat
deriving Repr, DecidableEq, Inhabited

/-- Applies the accepted fixes of all diagnostics. There is no outcome when two edits of one
accepted fix spoil each other's range. -/
def applyFixes? (source : String) (diagnostics : List Diagnostic) : Option FixOutcome :=
  let fixes := fixesInOrder diagnostics
  let accepted := acceptedFixes source.toList diagnostics
  let edits := TextEdit.lastFirst (accepted.flatMap Fix.edits)
  (TextEdit.applyAll? edits source.toList).map fun output =>
    ⟨String.ofList output, accepted.length, fixes.length - accepted.length⟩

end TemplateLint
