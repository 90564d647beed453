import TemplateLint.Proofs.Diagnostic.Outcome
import TemplateLint.Proofs.Lint.Reports

/-! The diagnostics of a run as repairs of the template: each has one edit, and the edit swaps the
brackets of a box in the range that is reported. -/
namespace TemplateLint

/-- Byte `n` of the template is in the reported range. -/
def Diagnostic.Covers (d : Diagnostic) (n : Nat) : Prop := d.start.toNat ≤ n ∧ n < d.stop.toNat

namespace BananaInBox
open Text

/-- The edit that swaps the brackets of a box in the range of a diagnostic. -/
def swapEdit (d : Diagnostic) (inner : List Char) : TextEdit :=
  ⟨d.start, d.stop, String.ofList (swappedText inner)⟩

/-- The diagnostic reports a box around `inner` that stands in the template, and its fix swaps the
brackets. -/
structure Repairs (source : List Char) (d : Diagnostic) (inner : List Char) : Prop where
  slice : slice? source d.start.toNat d.stop.toNat = some (boxText inner)
  fix : ∃ text, d.fix = some ⟨text, [swapEdit d inner]⟩

theorem exists_repairs_of_mem_reports {override : Option Severity} {source filename : String}
    {event : BoundEvent} {d : Diagnostic}
    (hd : d ∈ Note.reports override (answer source filename event)) :
    ∃ inner, Repairs source.toList d inner := by
  by_cases hs : detect event.name.toList = true ∧ HasBox (attributeKey event.span.source.toList)
  · obtain ⟨hname, hbox⟩ := hs
    obtain ⟨before, inner, after, h⟩ := exists_split hbox
    rw [answer, check_of_split hname h] at hd
    split at hd
    next => simp [Note.reports] at hd
    next start stop hrange =>
      obtain ⟨-, -, hslice⟩ := h.templateRange?_eq_some_iff.mp hrange
      simp only [Note.reports, List.filterMap_cons, List.filterMap_nil, List.mem_singleton] at hd
      subst hd
      exact ⟨inner, hslice, _, rfl⟩
  · rw [answer, check_eq_nil hs] at hd
    exact absurd hd List.not_mem_nil

theorem exists_repairs {linter : Linter} (hrules : linter.rules = .recommended) {root : RootNode}
    {filename : String} {d : Diagnostic} (hd : d ∈ (linter.lint root filename).diagnostics) :
    ∃ inner, Repairs root.source.toList d inner := by
  obtain ⟨override, event, -, hd⟩ := Linter.exists_of_mem_diagnostics hrules hd
  exact exists_repairs_of_mem_reports hd

namespace Repairs
variable {source inner : List Char} {d : Diagnostic}

theorem edits_eq (h : Repairs source d inner) {f : Fix} (hf : f ∈ d.fix) :
    f.edits = [swapEdit d inner] := by
  obtain ⟨text, hfix⟩ := h.fix
  rw [Option.mem_def, hfix, Option.some.injEq] at hf
  rw [← hf]

theorem fits (h : Repairs source d inner) : (swapEdit d inner).fits source = true :=
  isRange_of_slice? h.slice

theorem start_add (h : Repairs source d inner) :
    d.start.toNat + (byteLength inner + 4) = d.stop.toNat := by
  obtain ⟨before, after, -, -, hstop⟩ := slice?_eq_some_iff.mp h.slice
  rw [← hstop, byteLength_boxText]

/-- Edits overlap only where their ranges have a byte in common. -/
theorem apart_of_disjoint {d' : Diagnostic} {inner' : List Char} (h : Repairs source d inner)
    (h' : Repairs source d' inner') (hdisj : ∀ n, ¬ (d.Covers n ∧ d'.Covers n)) :
    (swapEdit d inner).Apart (swapEdit d' inner') := by
  have hstop := h.start_add
  have hstop' := h'.start_add
  have hmax := hdisj (max d.start.toNat d'.start.toNat)
  unfold TextEdit.Apart TextEdit.overlaps swapEdit
  rw [Bool.or_eq_false_iff, Bool.and_eq_false_iff]
  simp only [decide_eq_false_iff_not, UInt32.lt_iff_toNat_lt, ← UInt32.toNat_inj]
  unfold Diagnostic.Covers at hmax
  omega

end Repairs

section Batch
variable {source : List Char} {ds : List Diagnostic}
  (hall : ∀ d ∈ ds, ∃ inner, Repairs source d inner)
include hall

theorem length_fixesInOrder : (fixesInOrder ds).length = ds.length := by
  rw [(fixesInOrder_perm ds).length_eq, List.length_filterMap_eq_countP, List.countP_eq_length]
  intro d hd
  obtain ⟨inner, h⟩ := hall d hd
  obtain ⟨text, hfix⟩ := h.fix
  rw [hfix, Option.isSome_some]

theorem fix_pairwise_apart : ∀ d ∈ ds, ∀ f ∈ d.fix, f.edits.Pairwise TextEdit.Apart := by
  intro d hd f hf
  obtain ⟨inner, h⟩ := hall d hd
  rw [h.edits_eq hf]
  exact List.pairwise_singleton _ _

theorem length_acceptedEdits :
    (acceptedEdits source ds).length = (acceptedFixes source ds).length := by
  have hone : ∀ f ∈ acceptedFixes source ds, f.edits.length = 1 := by
    intro f hf
    obtain ⟨d, hd, hfix⟩ := exists_of_mem_acceptedFixes hf
    obtain ⟨inner, h⟩ := hall d hd
    rw [h.edits_eq hfix, List.length_singleton]
  rw [acceptedEdits, List.length_flatMap, List.map_congr_left hone, List.map_const',
    List.sum_replicate_nat, Nat.mul_one]

theorem exists_of_mem_acceptedEdits {e : TextEdit} (he : e ∈ acceptedEdits source ds) :
    ∃ d ∈ ds, ∃ inner, Repairs source d inner ∧ e = swapEdit d inner := by
  obtain ⟨f, hf, he⟩ := List.mem_flatMap.mp he
  obtain ⟨d, hd, hfix⟩ := exists_of_mem_acceptedFixes hf
  obtain ⟨inner, h⟩ := hall d hd
  rw [h.edits_eq hfix, List.mem_singleton] at he
  exact ⟨d, hd, inner, h, he⟩

theorem acceptedFixes_eq_of_disjoint
    (hdisj : ds.Pairwise fun a b => ∀ n, ¬ (a.Covers n ∧ b.Covers n)) :
    acceptedFixes source ds = fixesInOrder ds := by
  refine acceptedFixes_eq_fixesInOrder ?_ ?_
  · intro d hd f hf
    obtain ⟨inner, h⟩ := hall d hd
    rw [h.edits_eq hf]
    refine ⟨List.cons_ne_nil _ _, fun e he => ?_⟩
    rw [List.mem_singleton.mp he]
    exact h.fits
  · rw [List.pairwise_filterMap]
    refine hdisj.imp_of_mem ?_
    intro a b ha hb hab f hf g hg
    obtain ⟨inner, h⟩ := hall a ha
    obtain ⟨inner', h'⟩ := hall b hb
    intro e he e' he'
    rw [h.edits_eq hf, List.mem_singleton] at he
    rw [h'.edits_eq hg, List.mem_singleton] at he'
    rw [he, he']
    exact h.apart_of_disjoint h' hab

end Batch

/-- A selection of characters that has no white space, and that does not tell a box from the swapped
box, does not tell the template from the repaired one. -/
theorem filter_boxText {p : Char → Bool} (hspace : ∀ c, isWhiteSpace c = true → p c = false)
    (hopen : ['(', '['].filter p = ['[', '('].filter p)
    (hclose : [']', ')'].filter p = [')', ']'].filter p) (inner : List Char) :
    (boxText inner).filter p = (swappedText inner).filter p := by
  have hbox : boxText inner = ['(', '['] ++ inner ++ [']', ')'] := rfl
  have hswap : swappedText inner = ['[', '('] ++ trim inner ++ [')', ']'] := rfl
  rw [hbox, hswap, List.filter_append, List.filter_append, List.filter_append, List.filter_append,
    filter_trim hspace, hopen, hclose]

theorem filter_splice? {source out : List Char} {ds : List Diagnostic} {edits : List TextEdit}
    {p : Char → Bool}
    (hspace : ∀ c, isWhiteSpace c = true → p c = false)
    (hopen : ['(', '['].filter p = ['[', '('].filter p)
    (hclose : [']', ')'].filter p = [')', ']'].filter p)
    (hedits : ∀ e ∈ edits, ∃ d ∈ ds, ∃ inner, Repairs source d inner ∧ e = swapEdit d inner)
    (hsplice : TextEdit.splice? source 0 (byteLength source) edits = some out) :
    out.filter p = source.filter p := by
  have hrel : ∀ e ∈ edits, ∃ old, slice? source e.start.toNat e.stop.toNat = some old ∧
      old.filter p = e.newText.toList.filter p := by
    intro e he
    obtain ⟨d, -, inner, h, rfl⟩ := hedits e he
    refine ⟨boxText inner, h.slice, ?_⟩
    rw [swapEdit, String.toList_ofList]
    exact filter_boxText hspace hopen hclose inner
  obtain ⟨old, hold, h⟩ := TextEdit.splice?_rel (R := fun a b => a.filter p = b.filter p)
    (fun _ => rfl) (fun ha hb => by rw [List.filter_append, List.filter_append, ha, hb]) hrel
    hsplice
  rw [slice?_self, Option.some.injEq] at hold
  rw [← h, hold]

end BananaInBox
end TemplateLint
