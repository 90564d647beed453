import Mathlib.Data.List.Induction
import TemplateLint.Proofs.Diagnostic.Choice
import TemplateLint.Proofs.Diagnostic.Outcome

/-! When there is no outcome of applying many fixes. Edits of two fixes are never in each other's
way. What can stop an edit is an overlapping edit of its own fix that is made before it, and only
when that leaves the end of its range inside a character or behind the end of the text. -/
namespace TemplateLint
open Text

namespace TextEdit

/-- Whether an offset is a boundary of what edits make of a text, traced back through the edits:
it lies in front of an edit, in the text that the edit has put there, or behind it. The edit that is
made last stands first. -/
def boundaryAfter (text : List Char) : List TextEdit → Nat → Bool
  | [], n => isBoundary text n
  | e :: made, n =>
    let stop := e.start.toNat + byteLength e.newText.toList
    if n ≤ e.start.toNat then boundaryAfter text made n
    else if n ≤ stop then isBoundary e.newText.toList (n - e.start.toNat)
    else boundaryAfter text made (n - stop + e.stop.toNat)

/-- The edit overlaps an edit of its own fix that is made before it. -/
def Clashes (e : TextEdit) (fixes : List Fix) (made : List TextEdit) : Prop :=
  ∃ f ∈ fixes, e ∈ f.edits ∧ ∃ other ∈ made, other ∈ f.edits ∧ e.overlaps other = true

/-- Tracing an offset back says the same as looking at the edited text. -/
theorem isBoundary_applyAll? {made : List TextEdit} {text out : List Char}
    (h : applyAll? made text = some out) (n : Nat) :
    isBoundary out n = boundaryAfter text made.reverse n := by
  -- An offset of the result is traced through the last edit first.
  induction made using List.reverseRecOn generalizing out n with
  | nil =>
    rw [applyAll?, Option.some.injEq] at h
    rw [← h, List.reverse_nil, boundaryAfter]
  | append_singleton made e ih =>
    rw [applyAll?_append, Option.bind_eq_some_iff] at h
    obtain ⟨mid, hmade, hlast⟩ := h
    obtain ⟨next, he, hnext⟩ := Option.bind_eq_some_iff.mp hlast
    rw [applyAll?, Option.some.injEq] at hnext
    subst hnext
    rw [isBoundary_applied? he, List.reverse_concat, boundaryAfter, ih hmade, ih hmade]

/-- Edits behind `front` leave it alone. -/
theorem applyAll?_front {es : List TextEdit} {front back out : List Char}
    (hstart : ∀ e ∈ es, byteLength front ≤ e.start.toNat)
    (h : applyAll? es (front ++ back) = some out) : ∃ rest, out = front ++ rest := by
  induction es generalizing back with
  | nil =>
    rw [applyAll?, Option.some.injEq] at h
    exact ⟨back, h.symm⟩
  | cons e es ih =>
    obtain ⟨next, he, hnext⟩ := Option.bind_eq_some_iff.mp h
    obtain ⟨before, middle, after, htext, hb, -, rfl⟩ := applied?_eq_some_iff.mp he
    rw [List.append_assoc before] at htext
    have hle : byteLength front ≤ byteLength before := hb ▸ hstart e List.mem_cons_self
    obtain ⟨kept, rfl, -⟩ := exists_middle_of_byteLength_le htext hle
    simp only [List.append_assoc] at hnext
    exact ih (fun e' he' => hstart e' (List.mem_cons_of_mem _ he')) hnext

/-- A boundary in front of all edits stays one. -/
theorem isBoundary_of_le {es : List TextEdit} {text out : List Char} {n : Nat}
    (hn : isBoundary text n = true) (hstart : ∀ e ∈ es, n ≤ e.start.toNat)
    (h : applyAll? es text = some out) : isBoundary out n = true := by
  obtain ⟨front, back, rfl, rfl⟩ := isBoundary_iff.mp hn
  obtain ⟨rest, rfl⟩ := applyAll?_front hstart h
  exact isBoundary_iff.mpr ⟨front, rest, rfl, rfl⟩

/-- Edits can be made one after another exactly if each fits the text that those before it leave. -/
theorem isSome_applyAll?_iff {es : List TextEdit} {text : List Char} :
    (applyAll? es text).isSome = true ↔ ∀ made e rest, es = made ++ e :: rest →
      ∀ now, applyAll? made text = some now → e.fits now = true := by
  constructor
  · rintro h made e rest rfl now hmade
    rw [applyAll?_append, hmade, Option.bind_some, applyAll?] at h
    rw [← isSome_applied?]
    exact Option.isSome_of_isSome_bind h
  · intro h
    induction es generalizing text with
    | nil => rfl
    | cons e es ih =>
      have he : (applied? e text).isSome = true := by
        rw [isSome_applied?]
        exact h [] e es rfl text rfl
      obtain ⟨next, hnext⟩ := Option.isSome_iff_exists.mp he
      rw [applyAll?, hnext, Option.bind_some]
      apply ih
      rintro made e' rest rfl now hmade
      refine h (e :: made) e' rest rfl now ?_
      rw [applyAll?, hnext, Option.bind_some, hmade]

end TextEdit

section Step
variable {source text : List Char} {ds : List Diagnostic} {made rest : List TextEdit} {e : TextEdit}
  (hsplit : TextEdit.lastFirst (acceptedEdits source ds) = made ++ e :: rest)
include hsplit

theorem mem_acceptedEdits_of_split : ∀ x ∈ made ++ e :: rest, x ∈ acceptedEdits source ds := by
  intro x hx
  exact (TextEdit.lastFirst_perm _).subset (hsplit ▸ hx)

theorem start_le_of_made : ∀ other ∈ made, e.start ≤ other.start := by
  intro other hother
  have hord := TextEdit.lastFirst_reverse_pairwise_le (acceptedEdits source ds)
  rw [List.pairwise_reverse, hsplit, List.pairwise_append] at hord
  exact hord.2.2 other hother e List.mem_cons_self

/-- Without a clash, the edit ends where the edits made before it begin, or in front of them. -/
theorem before_of_not_clashes (hclash : ¬ e.Clashes (acceptedFixes source ds) made) :
    ∀ other ∈ made, e.Before other := by
  intro other hother
  have he := mem_acceptedEdits_of_split hsplit e (List.mem_append_right _ List.mem_cons_self)
  have ho := mem_acceptedEdits_of_split hsplit other (List.mem_append_left _ hother)
  -- Two accepted fixes are apart, so an overlap can only be within one fix, and that is a clash.
  have hapart : e.Apart other := by
    obtain ⟨f, hf, hef⟩ := List.mem_flatMap.mp he
    obtain ⟨g, hg, hog⟩ := List.mem_flatMap.mp ho
    by_cases hfg : f = g
    · subst hfg
      by_contra hover
      rw [TextEdit.Apart, Bool.not_eq_false] at hover
      exact hclash ⟨f, hf, hef, other, hother, hog, hover⟩
    · have hfixes : (acceptedFixes source ds).Pairwise Fix.Apart := takeFixes_pairwise _ _
      exact hfixes.forall hf hg hfg e hef other hog
  exact hapart.before (fits_of_mem_acceptedEdits ho) (start_le_of_made hsplit other hother)

/-- An edit fits the text that is left to it unless it clashes and its end is no boundary there. -/
theorem fits_iff_of_made (hmade : TextEdit.applyAll? made source = some text) :
    e.fits text = true ↔ (e.Clashes (acceptedFixes source ds) made →
      TextEdit.boundaryAfter source made.reverse e.stop.toNat = true) := by
  have hfit := fits_of_mem_acceptedEdits
    (mem_acceptedEdits_of_split hsplit e (List.mem_append_right _ List.mem_cons_self))
  unfold TextEdit.fits isRange at hfit ⊢
  rw [Bool.and_eq_true, Bool.and_eq_true] at hfit ⊢
  obtain ⟨⟨hle, hstart⟩, hstop⟩ := hfit
  have hstart' : isBoundary text e.start.toNat = true :=
    TextEdit.isBoundary_of_le hstart
      (fun other hother => UInt32.le_iff_toNat_le.mp (start_le_of_made hsplit other hother)) hmade
  rw [← TextEdit.isBoundary_applyAll? hmade]
  constructor
  · exact fun h _ => h.2
  · intro h
    refine ⟨⟨hle, hstart'⟩, ?_⟩
    by_cases hclash : e.Clashes (acceptedFixes source ds) made
    · exact h hclash
    · refine TextEdit.isBoundary_of_le hstop (fun other hother => ?_) hmade
      exact UInt32.le_iff_toNat_le.mp (before_of_not_clashes hsplit hclash other hother).2

end Step

/-- Applying fixes has an outcome exactly if every accepted edit that clashes ends on a boundary of
the text that the edits made before it leave. In any run an edit fits the text it is made in unless
it clashes and does not end on such a boundary, so that with an outcome every replaced range lies in
the text between characters. -/
theorem exists_applyFixes?_iff (source : String) (ds : List Diagnostic) :
    let fixes := acceptedFixes source.toList ds
    let edits := TextEdit.lastFirst (fixes.flatMap Fix.edits)
    ((∃ outcome, applyFixes? source ds = some outcome) ↔
      ∀ made e rest, edits = made ++ e :: rest → e.Clashes fixes made →
        TextEdit.boundaryAfter source.toList made.reverse e.stop.toNat = true) ∧
    ∀ made e rest, edits = made ++ e :: rest →
      ∀ text, TextEdit.applyAll? made source.toList = some text →
        (e.fits text = true ↔ (e.Clashes fixes made →
          TextEdit.boundaryAfter source.toList made.reverse e.stop.toNat = true)) := by
  intro fixes edits
  refine ⟨?_, fun made e rest hsplit text hmade => fits_iff_of_made hsplit hmade⟩
  have hsome : (∃ outcome, applyFixes? source ds = some outcome) ↔
      (TextEdit.applyAll? edits source.toList).isSome = true := by
    rw [← Option.isSome_iff_exists, applyFixes?, Option.isSome_map]
  rw [hsome]
  constructor
  · intro h made e rest hsplit hclash
    have hmade : (TextEdit.applyAll? made source.toList).isSome = true := by
      rw [hsplit, TextEdit.applyAll?_append] at h
      exact Option.isSome_of_isSome_bind h
    obtain ⟨text, htext⟩ := Option.isSome_iff_exists.mp hmade
    exact (fits_iff_of_made hsplit htext).mp
      (TextEdit.isSome_applyAll?_iff.mp h made e rest hsplit text htext) hclash
  · intro h
    refine TextEdit.isSome_applyAll?_iff.mpr fun made e rest hsplit text htext => ?_
    exact (fits_iff_of_made hsplit htext).mpr (h made e rest hsplit)

/-- A fix that takes away the whole text and a part of it again: the second edit does not fit any
more, though both fit the source. -/
theorem applyFixes?_overlapping_edits :
    let ds : List Diagnostic :=
      [⟨"r", .error, "m", 0, 2, none, some ⟨"f", [⟨0, 2, ""⟩, ⟨1, 2, ""⟩]⟩⟩]
    (∀ d ∈ ds, ∀ f ∈ d.fix, ∀ e ∈ f.edits, e.fits "ab".toList = true) ∧
      applyFixes? "ab" ds = none := by
  intro ds
  refine ⟨by decide, ?_⟩
  simp only [applyFixes?, acceptedFixes, fixesInOrder_eq_insertionSort,
    TextEdit.lastFirst_eq_insertionSort]
  decide +kernel

end TemplateLint
