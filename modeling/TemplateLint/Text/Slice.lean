/-!
Cutting texts at UTF-8 byte offsets. A cut exists exactly between two characters, so a slice is
never part of a character and never out of range.
-/

namespace TemplateLint.Text

/-- Length in UTF-8 bytes. -/
def byteLength : List Char → Nat
  | [] => 0
  | c :: cs => c.utf8Size + byteLength cs

/-- The text before and from byte offset `n`; nothing when `n` is past the end or inside a
character. -/
def cut? : List Char → Nat → Option (List Char × List Char)
  | cs, 0 => some ([], cs)
  | [], _ + 1 => none
  | c :: cs, n + 1 =>
    if c.utf8Size ≤ n + 1 then
      (cut? cs (n + 1 - c.utf8Size)).map fun (before, rest) => (c :: before, rest)
    else none

/-- Byte offset `n` lies between two characters, or at an end. -/
def isBoundary (cs : List Char) (n : Nat) : Bool := (cut? cs n).isSome

/-- A range that can be cut out: in order, inside the text, between characters. -/
def isRange (cs : List Char) (start stop : Nat) : Bool :=
  decide (start ≤ stop) && isBoundary cs start && isBoundary cs stop

/-- What stands before `start`, between `start` and `stop`, and from `stop` on. -/
def parts? (cs : List Char) (start stop : Nat) : Option (List Char × List Char × List Char) :=
  if start ≤ stop then do
    let (before, rest) ← cut? cs start
    let (middle, after) ← cut? rest (stop - start)
    return (before, middle, after)
  else none

def slice? (cs : List Char) (start stop : Nat) : Option (List Char) :=
  (parts? cs start stop).map fun (_, middle, _) => middle

/-- Puts `new` in the place of the range, which has to be one that can be cut out. -/
def replace? (cs : List Char) (start stop : Nat) (new : List Char) : Option (List Char) :=
  (parts? cs start stop).map fun (before, _, after) => before ++ new ++ after

@[simp] theorem byteLength_append (a b : List Char) :
    byteLength (a ++ b) = byteLength a + byteLength b := by
  induction a with
  | nil => simp [byteLength]
  | cons c cs ih => simp [byteLength, ih, Nat.add_assoc]

/-- A cut loses nothing, and its first part has the length asked for. -/
theorem eq_of_cut? {cs before rest : List Char} {n : Nat} (h : cut? cs n = some (before, rest)) :
    cs = before ++ rest ∧ byteLength before = n := by
  induction cs generalizing n before rest with
  | nil =>
    cases n with
    | zero => simp_all [cut?, byteLength]
    | succ n => simp [cut?] at h
  | cons c cs ih =>
    cases n with
    | zero => simp_all [cut?, byteLength]
    | succ n =>
      simp only [cut?] at h
      split at h
      · obtain ⟨⟨b, r⟩, hb, he⟩ := Option.map_eq_some_iff.1 h
        simp only [Prod.mk.injEq] at he
        obtain ⟨rfl, rfl⟩ := he
        obtain ⟨rfl, hl⟩ := ih hb
        exact ⟨rfl, by simp only [byteLength, hl]; omega⟩
      · simp at h

end TemplateLint.Text
