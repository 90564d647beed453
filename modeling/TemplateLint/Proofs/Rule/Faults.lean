import TemplateLint.Proofs.Checked
import TemplateLint.Proofs.Rule.Boxes

/-! The rule with every cut and every sum that it does not check made to stop it when they go
wrong. It never stops, and says what the rule says. -/
namespace TemplateLint.BananaInBox
open Text

/-- What would stop the rule. -/
inductive Fault where
  /-- A cut outside the text or inside a character. -/
  | cut
  /-- A difference below zero. -/
  | underflow
  /-- A sum greater than the length of the text in which it is a place. -/
  | overflow
deriving Repr, DecidableEq

namespace Strict

def slice (text : List Char) (start stop : Nat) : Except Fault (List Char) :=
  match slice? text start stop with
  | some middle => .ok middle
  | none => .error .cut

/-- A text that is there has a length that is a size, so sums up to that length are sizes too. -/
def add (text : List Char) (a b : Nat) : Except Fault Nat :=
  if a + b ≤ byteLength text then .ok (a + b) else .error .overflow

theorem slice_ok {text middle : List Char} {start stop : Nat}
    (h : slice? text start stop = some middle) : slice text start stop = .ok middle := by
  unfold slice
  rw [h]

theorem add_ok {text : List Char} {a b : Nat} (h : a + b ≤ byteLength text) :
    add text a b = .ok (a + b) := if_pos h

/-- Looks for a `]` in what is left of the name behind its first `[`. -/
def detect (name : List Char) : Except Fault Bool := do
  if '[' ∈ name then
    let behind ← add name (byteLength (name.takeWhile (· ≠ '['))) 1
    let rest ← slice name behind (byteLength name)
    return rest.any (· = ']')
  else return false

def attributeKey (text : List Char) : Except Fault (List Char) :=
  if '=' ∈ text then slice text 0 (byteLength (text.takeWhile (· ≠ '='))) else .ok text

def locate (text : List Char) : Except Fault (Option Box) :=
  match firstPair? '(' '[' 0 text, lastPair? ']' ')' 0 text with
  | some start, some stop => do
    let behind ← add text start 2
    if stop < behind then return none
    else
      let content ← slice text behind stop
      return some ⟨start, stop, trim content⟩
  | _, _ => return none

/-- The length of a box and the end of it in the key, of which the rest of the work is checked. -/
def templateRange (source : List Char) (base : UInt32) (key : List Char) (b : Box) :
    Except Fault (Option (UInt32 × UInt32)) := do
  let between ← checkedSub .underflow b.stop b.start
  let length ← add key between 2
  let _ ← add key b.start length
  return templateRange? source base key b

/-- The swapped box, in a buffer made for its content and four brackets. -/
def swapped (key : List Char) (b : Box) : Except Fault (List Char) := do
  let _ ← add key (byteLength b.content) 4
  return b.swapped

def check (event : BoundEvent) (ctx : Context) : Except Fault (List Note) := do
  if ← detect event.name.toList then
    let key ← attributeKey event.span.source.toList
    match ← locate key with
    | none => return []
    | some b =>
      match ← templateRange ctx.source.toList event.span.start.offset key b with
      | none => return [.log (mismatchEvent ctx.filename event)]
      | some (start, stop) =>
        let _ ← swapped key b
        return [.log (foundEvent ctx.filename b start stop), .report (diagnosticOf b start stop)]
  else return []

theorem detect_eq (name : List Char) : detect name = .ok (BananaInBox.detect name) := by
  unfold detect
  by_cases hopen : '[' ∈ name
  · obtain ⟨front, rest, rfl, hfront⟩ := List.eq_append_cons_of_mem hopen
    have hadd : byteLength front + 1 ≤ byteLength (front ++ '[' :: rest) := by
      rw [byteLength_append]
      change _ ≤ _ + (1 + _)
      omega
    have hslice : slice? (front ++ '[' :: rest) (byteLength front + 1)
        (byteLength (front ++ '[' :: rest)) = some rest := by
      refine slice?_eq_some_iff.mpr ⟨front ++ ['['], [], by simp, ?_, ?_⟩
      · rw [byteLength_append]
        rfl
      · rw [byteLength_append]
        change _ = byteLength front + (1 + byteLength rest)
        omega
    rw [if_pos hopen, takeWhile_ne_append hfront, add_ok hadd, bind_ok, slice_ok hslice,
      BananaInBox.detect, dropWhile_ne_append hfront]
    simp [pure, Except.pure, bind, Except.bind]
  · rw [if_neg hopen, BananaInBox.detect, dropWhile_ne_eq_nil hopen]
    rfl

theorem attributeKey_eq (text : List Char) :
    attributeKey text = .ok (BananaInBox.attributeKey text) := by
  have hkey := isKey_attributeKey text
  unfold attributeKey
  split
  next =>
    apply slice_ok
    obtain ⟨-, he | ⟨value, he⟩⟩ := hkey
    · exact slice?_eq_some_iff.mpr ⟨[], [], by simpa using he, rfl, Nat.zero_add _⟩
    · exact slice?_eq_some_iff.mpr ⟨[], '=' :: value, he, rfl, Nat.zero_add _⟩
  next heq => rw [BananaInBox.attributeKey, takeWhile_ne_eq heq]

theorem locate_eq (text : List Char) : locate text = .ok (locate? text) := by
  unfold locate locate?
  cases hstart : firstPair? '(' '[' 0 text with
  | none => rfl
  | some start =>
    cases hstop : lastPair? ']' ')' 0 text with
    | none => rfl
    | some stop =>
      obtain ⟨before, rest, rfl, -, rfl⟩ := (firstPair?_eq_some_iff (by decide)).mp hstart
      obtain ⟨front, after, hcut, -, rfl⟩ := (lastPair?_eq_some_iff (by decide)).mp hstop
      have hadd : byteLength before + 2 ≤ byteLength (before ++ '(' :: '[' :: rest) := by
        rw [byteLength_append]
        change _ ≤ _ + (1 + (1 + _))
        omega
      simp only [add_ok hadd, bind_ok, Option.bind_eq_bind, Option.bind_some]
      split
      next => rfl
      next hle =>
        have hopen : before ++ '(' :: '[' :: rest = (before ++ ['(', '[']) ++ rest := by simp
        have hlen : byteLength (before ++ ['(', '[']) = byteLength before + 2 :=
          byteLength_append ..
        obtain ⟨content, rfl, rfl⟩ :=
          exists_middle_of_byteLength_le (hopen.symm.trans hcut) (by omega)
        have hslice : slice? (before ++ '(' :: '[' :: (content ++ ']' :: ')' :: after))
            (byteLength before + 2) (byteLength (before ++ ['(', '['] ++ content)) =
              some content := by
          refine slice?_eq_some_iff.mpr ⟨before ++ ['(', '['], ']' :: ')' :: after, ?_, hlen, ?_⟩
          · simp
          · rw [← hlen]
            exact (byteLength_append ..).symm
        rw [slice_ok hslice, hslice]
        rfl

theorem templateRange_eq {key before inner after : List Char} (h : Split key before inner after)
    (source : List Char) (base : UInt32) :
    templateRange source base key (boxBehind before inner) =
      .ok (templateRange? source base key (boxBehind before inner)) := by
  have hkey := congrArg byteLength h.key_eq_append
  rw [byteLength_append, byteLength_append, byteLength_boxText] at hkey
  unfold templateRange
  rw [boxBehind_start, boxBehind_stop, checkedSub_ok (by omega), bind_ok, add_ok (by omega),
    bind_ok, add_ok (by omega)]
  rfl

theorem swapped_eq {key before inner after : List Char} (h : Split key before inner after) :
    swapped key (boxBehind before inner) = .ok (boxBehind before inner).swapped := by
  have hkey := congrArg byteLength h.key_eq_append
  rw [byteLength_append, byteLength_append, byteLength_boxText] at hkey
  have htrim := byteLength_trim_le inner
  unfold swapped
  rw [boxBehind_content, add_ok (by omega)]
  rfl

/-- Nothing stops the rule, whatever the name, the span and the template. -/
theorem check_eq (event : BoundEvent) (ctx : Context) :
    check event ctx = .ok (BananaInBox.check event ctx) := by
  unfold check BananaInBox.check
  rw [detect_eq, bind_ok]
  split
  next =>
    rw [attributeKey_eq, bind_ok, locate_eq, bind_ok]
    cases hbox : locate? (BananaInBox.attributeKey event.span.source.toList) with
    | none =>
      simp only [hbox]
      rfl
    | some b =>
      obtain ⟨before, inner, after, h, rfl⟩ := locate?_eq_some_iff.mp hbox
      simp only [hbox, templateRange_eq h, swapped_eq h, bind_ok]
      cases templateRange? ctx.source.toList event.span.start.offset
        (BananaInBox.attributeKey event.span.source.toList) (boxBehind before inner) <;> rfl
  next => rfl

end Strict
end TemplateLint.BananaInBox
