import TemplateLint.Proofs.Diagnostic.Offsets
import TemplateLint.Proofs.Diagnostic.Outcome
import TemplateLint.Proofs.Lint.Attributes

/-! Linting a template again after its fixes have been applied: which event bindings are reported
the second time. -/
namespace TemplateLint
open BananaInBox Text

/-- Two spans have no byte in common. -/
def SourceSpan.Disjoint (a b : SourceSpan) : Prop := ∀ n, ¬ (a.Covers n ∧ b.Covers n)

theorem SourceSpan.start_lt_stop {s : SourceSpan} (h : s.isEmpty = false) :
    s.start.offset.toNat < s.stop.offset.toNat := by
  have hlen : ¬ s.length = 0 := of_decide_eq_false h
  unfold SourceSpan.length at hlen
  omega

theorem SourceSpan.Disjoint.symm {a b : SourceSpan} (h : a.Disjoint b) : b.Disjoint a :=
  fun n hn => h n hn.symm

/-- The event binding with its span taken from the output of the edits, between the offsets to which
the ends of the old span have moved. -/
structure BoundEvent.Rederived (edits : List TextEdit) (output : String) (old new : BoundEvent) :
    Prop where
  name : new.name = old.name
  span : new.span.IsOf output
  start : new.span.start.offset.toNat = TextEdit.moved edits old.span.start.offset.toNat
  stop : new.span.stop.offset.toNat = TextEdit.moved edits old.span.stop.offset.toNat

theorem BoundEvent.Rederived.perm {edits edits' : List TextEdit} {output : String}
    {old new : BoundEvent} (h : old.Rederived edits output new) (hperm : edits.Perm edits') :
    old.Rederived edits' output new :=
  ⟨h.name, h.span, h.start.trans (TextEdit.moved_perm hperm _),
    h.stop.trans (TextEdit.moved_perm hperm _)⟩

namespace BananaInBox

section Template
variable {source filename : String}

theorem covers_of_mem_found {event : BoundEvent} (hspan : event.span.IsOf source) {d : Diagnostic}
    (hd : d ∈ found source filename event) {n : Nat} (hn : d.Covers n) : event.span.Covers n := by
  rcases found_eq_nil_or_singleton filename hspan with hnil | hone
  · rw [hnil] at hd
    exact absurd hd List.not_mem_nil
  · obtain ⟨d', inner, hone, -, -, hle, hge⟩ := hone
    rw [hone, List.mem_singleton] at hd
    rw [hd] at hn
    exact ⟨hle.trans hn.1, hn.2.trans_le hge⟩

/-- The edit of a report lies in the span of its event and brings in no more than it takes away. -/
theorem edit_within {event : BoundEvent} (hspan : event.span.IsOf source) {e : TextEdit}
    (he : e ∈ editsOf (found source filename event)) :
    e.Within event.span.start.offset.toNat event.span.stop.offset.toNat ∧
      byteLength e.newText.toList ≤ e.stop.toNat - e.start.toNat := by
  rcases found_eq_nil_or_singleton filename hspan with hnil | hone
  · rw [hnil] at he
    exact absurd he List.not_mem_nil
  · obtain ⟨d, inner, hd, hedits, h, hle, hge⟩ := hone
    rw [hd, hedits, List.mem_singleton] at he
    have hstart : e.start = d.start := by rw [he, swapEdit]
    have hstop : e.stop = d.stop := by rw [he, swapEdit]
    have hnew : e.newText.toList = swappedText inner := by
      rw [he, swapEdit, String.toList_ofList]
    have hlen := h.start_add
    have htrim := byteLength_trim_le inner
    rw [TextEdit.Within, hstart, hstop, hnew, byteLength_swappedText]
    omega

theorem edit_outside {x y : BoundEvent} (hx : x.span.IsOf source) (hdisj : x.span.Disjoint y.span)
    (hy : y.span.start.offset.toNat < y.span.stop.offset.toNat) {e : TextEdit}
    (he : e ∈ editsOf (found source filename x)) :
    e.Outside y.span.start.offset.toNat y.span.stop.offset.toNat := by
  obtain ⟨⟨hle, hlt, hge⟩, -⟩ := edit_within hx he
  refine ⟨hlt, ?_⟩
  have hmax := hdisj (max e.start.toNat y.span.start.offset.toNat)
  unfold SourceSpan.Covers at hmax
  omega

theorem editsOf_found_pairwise {event : BoundEvent} (hspan : event.span.IsOf source) :
    (editsOf (found source filename event)).Pairwise TextEdit.Before := by
  rcases found_eq_nil_or_singleton filename hspan with hnil | hone
  · rw [hnil]
    exact List.Pairwise.nil
  · obtain ⟨d, inner, hd, hedits, -⟩ := hone
    rw [hd, hedits]
    exact List.pairwise_singleton _ _

theorem exists_repairs_of_mem_found {events : List BoundEvent} :
    ∀ d ∈ events.flatMap (found source filename), ∃ inner, Repairs source.toList d inner := by
  intro d hd
  obtain ⟨event, -, hd⟩ := List.mem_flatMap.mp hd
  exact exists_repairs_of_mem_reports hd

variable {events : List BoundEvent} (hspans : ∀ event ∈ events, event.span.IsOf source)
  (hdisj : events.Pairwise fun a b => a.span.Disjoint b.span)
include hspans hdisj

/-- Reports at events with disjoint spans are about disjoint ranges. -/
theorem found_pairwise : (events.flatMap (found source filename)).Pairwise
    fun a b => ∀ n, ¬ (a.Covers n ∧ b.Covers n) := by
  refine List.pairwise_flatMap.mpr ⟨?_, ?_⟩
  · intro x hx
    rcases found_eq_nil_or_singleton filename (hspans x hx) with h | ⟨d, inner, h, -⟩
    · rw [h]
      exact List.Pairwise.nil
    · rw [h]
      exact List.pairwise_singleton _ _
  · refine hdisj.imp_of_mem ?_
    intro x y hx hy hxy d hd d' hd' n hn
    have hleft := covers_of_mem_found (hspans x hx) hd hn.1
    have hright := covers_of_mem_found (hspans y hy) hd' hn.2
    exact hxy n ⟨hleft, hright⟩

theorem acceptedEdits_perm :
    (acceptedEdits source.toList (events.flatMap (found source filename))).Perm
      (editsOf (events.flatMap (found source filename))) := by
  unfold acceptedEdits editsOf
  rw [acceptedFixes_eq_of_disjoint exists_repairs_of_mem_found (found_pairwise hspans hdisj)]
  exact (fixesInOrder_perm _).flatMap_right _

section Output
variable {edits : List TextEdit} {output : String}
  (hperm : edits.Perm (editsOf (events.flatMap (found source filename))))
  (hord : edits.Pairwise TextEdit.Before)
  (hsplice : TextEdit.splice? source.toList 0 (byteLength source.toList) edits =
    some output.toList)
include hperm hord hsplice

/-- The fixed attribute stands in the output between the offsets to which its ends have moved. -/
theorem exists_slice?_fixed {y : BoundEvent} (hy : y ∈ events)
    (hlt : y.span.start.offset.toNat < y.span.stop.offset.toNat) :
    ∃ part, TextEdit.splice? source.toList y.span.start.offset.toNat y.span.stop.offset.toNat
        (editsOf (found source filename y)) = some part ∧
      slice? output.toList (TextEdit.moved edits y.span.start.offset.toNat)
        (TextEdit.moved edits y.span.stop.offset.toNat) = some part := by
  obtain ⟨before, after, rfl⟩ := List.append_of_mem hy
  obtain ⟨-, hafter, hbefore⟩ := List.pairwise_append.mp hdisj
  rw [List.flatMap_append, List.flatMap_cons, editsOf_append, editsOf_append,
    ← List.append_assoc] at hperm
  refine TextEdit.exists_slice?_moved hperm hord (editsOf_found_pairwise (hspans y hy))
    (fun e he => (edit_within (hspans y hy) he).1) ?_ ?_ hsplice
    (isRange_of_slice? (hspans y hy).slice?)
  · intro e he
    obtain ⟨x, hx, he⟩ := exists_of_mem_editsOf he
    exact edit_outside (hspans x (List.mem_append_left _ hx)) (hbefore x hx y List.mem_cons_self)
      hlt he
  · intro e he
    obtain ⟨x, hx, he⟩ := exists_of_mem_editsOf he
    exact edit_outside (hspans x (List.mem_append_right _ (List.mem_cons_of_mem _ hx)))
      ((List.pairwise_cons.mp hafter).1 x hx).symm hlt he

theorem exists_rederived {old : BoundEvent} (hold : old ∈ events)
    (hlt : old.span.start.offset.toNat < old.span.stop.offset.toNat) :
    ∃ new, old.Rederived edits output new := by
  obtain ⟨part, -, hpart⟩ := exists_slice?_fixed hspans hdisj hperm hord hsplice hold hlt
  have hshrink : ∀ e ∈ edits, byteLength e.newText.toList ≤ e.stop.toNat - e.start.toNat := by
    intro e he
    obtain ⟨x, hx, he⟩ := exists_of_mem_editsOf (hperm.subset he)
    exact (edit_within (hspans x hx) he).2
  have hmove := TextEdit.moved_le hshrink
  obtain ⟨start, hstart⟩ :=
    exists_offset ((hmove _).trans_lt old.span.start.offset.toNat_lt_size)
  obtain ⟨stop, hstop⟩ := exists_offset ((hmove _).trans_lt old.span.stop.offset.toNat_lt_size)
  rw [← hstart, ← hstop] at hpart
  obtain ⟨span, hspan⟩ : ∃ span, SourceSpan.ofTemplate? output start stop = some span :=
    ⟨_, SourceSpan.ofTemplate?_of_slice? hpart⟩
  obtain ⟨hs, ht, hof⟩ := SourceSpan.isOf_of_ofTemplate? hspan
  exact ⟨{ old with span := span }, rfl, hof, by rw [hs, hstart], by rw [ht, hstop]⟩

/-- The second time an event is reported exactly if swapping its brackets makes a box again. -/
theorem found_rederived_eq_nil_iff {filename' : String} {old new : BoundEvent} (hold : old ∈ events)
    (h : old.Rederived edits output new) : found output filename' new = [] ↔ ¬ old.Relapses := by
  rw [found_eq_nil_iff h.span, h.name]
  by_cases hlt : old.span.start.offset.toNat < old.span.stop.offset.toNat
  · obtain ⟨part, hpart, hout⟩ := exists_slice?_fixed hspans hdisj hperm hord hsplice hold hlt
    obtain ⟨part', hpart', hrelapse⟩ := exists_splice?_found filename (hspans old hold)
    rw [hpart, Option.some.injEq] at hpart'
    subst hpart'
    have htext := h.span.slice?
    rw [h.start, h.stop, hout, Option.some.injEq] at htext
    rw [← htext, hrelapse]
  · have hle := (hspans old hold).start_le_stop
    have hempty : old.span.start.offset.toNat = old.span.stop.offset.toNat := by omega
    have hnew := h.span.not_hasBox (by rw [h.start, h.stop, hempty])
    constructor
    · rintro - ⟨-, before, inner, after, hsplit, -⟩
      exact (hspans old hold).not_hasBox hempty hsplit.hasBox
    · rintro - ⟨-, hbox⟩
      exact hnew hbox

end Output
end Template
end BananaInBox

theorem forall_mem_iff_of_forall₂ {α β : Type} {R : α → β → Prop} {p : α → Prop} {q : β → Prop}
    {as : List α} {bs : List β} (h : List.Forall₂ R as bs)
    (hiff : ∀ a ∈ as, ∀ b, R a b → (q b ↔ p a)) : (∀ b ∈ bs, q b) ↔ ∀ a ∈ as, p a := by
  induction h with
  | nil => simp
  | cons hab _ ih =>
    rw [List.forall_mem_cons, List.forall_mem_cons, hiff _ List.mem_cons_self _ hab,
      ih fun a ha b => hiff a (List.mem_cons_of_mem _ ha) b]

namespace Linter

/-- When the spans of the events are disjoint pieces of the template, all fixes are applied. With
the spans taken from the output, the fixed template is clean exactly if no event relapses. -/
theorem relint_eq_nil_iff (root : RootNode) (filename filename' : String)
    (hspans : ∀ event ∈ root.events, event.span.IsOf root.source)
    (hdisj : root.events.Pairwise fun a b => a.span.Disjoint b.span) :
    ∃ outcome, (recommended.lint root filename).applyFixes? root.source = some outcome ∧
      outcome.skipped = 0 ∧
      let edits := acceptedEdits root.source.toList (recommended.lint root filename).diagnostics
      (∀ old ∈ root.events, old.span.isEmpty = false →
        ∃ new, old.Rederived edits outcome.output new) ∧
      ∀ fixed : RootNode, fixed.source = outcome.output →
        List.Forall₂ (fun old new => old.Rederived edits outcome.output new)
          root.events fixed.events →
        ((recommended.lint fixed filename').diagnostics = [] ↔
          ∀ old ∈ root.events, ¬ old.Relapses) := by
  unfold LintResult.applyFixes?
  rw [diagnostics_recommended root filename]
  have hall : ∀ d ∈ root.events.flatMap (found root.source filename),
      ∃ inner, Repairs root.source.toList d inner := exists_repairs_of_mem_found
  obtain ⟨outcome, edits, hrun, hedits, hord, hsplice, happlied, hskipped⟩ :=
    exists_applyFixes?_eq_splice? root.source (fix_pairwise_apart hall)
  have hperm := hedits.trans (acceptedEdits_perm hspans hdisj)
  refine ⟨outcome, hrun, ?_, ?_, ?_⟩
  · rw [hskipped, happlied,
      acceptedFixes_eq_of_disjoint hall (found_pairwise hspans hdisj), Nat.sub_self]
  · intro old hold hempty
    obtain ⟨new, hnew⟩ :=
      exists_rederived hspans hdisj hperm hord hsplice hold (SourceSpan.start_lt_stop hempty)
    exact ⟨new, hnew.perm hedits⟩
  · intro fixed hsource hevents
    rw [diagnostics_recommended, hsource, List.flatMap_eq_nil_iff]
    refine forall_mem_iff_of_forall₂ hevents fun old hold new hnew => ?_
    exact found_rederived_eq_nil_iff hspans hdisj hperm hord hsplice hold (hnew.perm hedits.symm)

/-- A box that relapses behind one that does not. -/
theorem relint_eq_nil_iff_two_boxes :
    let root := RootNode.ofEvents "<x ([a])=\"b\" (([c]))=\"d\">"
      [⟨"[a]", .regular, "b", none, ⟨⟨3, 1, 4⟩, ⟨12, 1, 13⟩, "([a])=\"b\""⟩, none⟩,
        ⟨"([c])", .regular, "d", none, ⟨⟨13, 1, 14⟩, ⟨24, 1, 25⟩, "(([c]))=\"d\""⟩, none⟩]
    (∀ event ∈ root.events, event.span.IsOf root.source) ∧
      (root.events.Pairwise fun a b => a.span.Disjoint b.span) ∧
      ∃ outcome, (recommended.lint root "t").applyFixes? root.source = some outcome ∧
        outcome.skipped = 0 ∧
        ∀ fixed : RootNode, fixed.source = outcome.output →
          List.Forall₂ (fun old new => old.Rederived
            (acceptedEdits root.source.toList (recommended.lint root "t").diagnostics)
            outcome.output new) root.events fixed.events →
          ((recommended.lint fixed "t").diagnostics = [] ↔
            ∀ old ∈ root.events, ¬ old.Relapses) := by
  intro root
  have hspans : ∀ event ∈ root.events, event.span.IsOf root.source := by
    unfold SourceSpan.IsOf
    decide +kernel
  have hdisj : root.events.Pairwise fun a b => a.span.Disjoint b.span := by
    refine List.pairwise_pair.mpr fun n => ?_
    simp only [SourceSpan.Covers, UInt32.reduceToNat]
    omega
  obtain ⟨outcome, hrun, hskipped, -, hclean⟩ := relint_eq_nil_iff root "t" "t" hspans hdisj
  exact ⟨hspans, hdisj, outcome, hrun, hskipped, hclean⟩

/-- One box in parentheses is enough for a fixed template that is not clean: swapping the brackets
of `(([a]))` makes `([(a)])`. -/
theorem relint_not_clean :
    let root := RootNode.ofEvents "<x (([a]))=\"b\">"
      [⟨"([a])", .regular, "b", none, ⟨⟨3, 1, 4⟩, ⟨14, 1, 15⟩, "(([a]))=\"b\""⟩, none⟩]
    let fixed := RootNode.ofEvents "<x ([(a)])=\"b\">"
      [⟨"([a])", .regular, "b", none, ⟨⟨3, 1, 4⟩, ⟨14, 1, 15⟩, "([(a)])=\"b\""⟩, none⟩]
    (∀ event ∈ root.events, event.span.IsOf root.source) ∧
      (root.events.Pairwise fun a b => a.span.Disjoint b.span) ∧
      (recommended.lint root "t").applyFixes? root.source = some ⟨fixed.source, 1, 0⟩ ∧
      List.Forall₂ (fun old new => old.Rederived
        (acceptedEdits root.source.toList (recommended.lint root "t").diagnostics)
        fixed.source new) root.events fixed.events ∧
      (recommended.lint fixed "t").diagnostics ≠ [] := by
  intro root fixed
  refine ⟨?_, List.pairwise_singleton _ _, by decide +kernel, ?_, by decide +kernel⟩
  · unfold SourceSpan.IsOf
    decide +kernel
  · refine .cons ⟨rfl, ?_, by decide +kernel, by decide +kernel⟩ .nil
    unfold SourceSpan.IsOf
    decide +kernel

end Linter
end TemplateLint
