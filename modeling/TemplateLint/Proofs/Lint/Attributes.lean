import TemplateLint.Proofs.Lint.Repairs
import TemplateLint.Proofs.Rule.Seams
import TemplateLint.Proofs.Template.Spans

/-! Event bindings with spans that are cut out of the template: what is reported about such a
binding, and what the fix makes of its attribute. -/
namespace TemplateLint
open Text

namespace SourceSpan

/-- Byte `n` of the template is in the span. -/
def Covers (s : SourceSpan) (n : Nat) : Prop := s.start.offset.toNat ≤ n ∧ n < s.stop.offset.toNat

/-- The span is the one over its range of the template. -/
def IsOf (source : String) (s : SourceSpan) : Prop :=
  ofTemplate? source s.start.offset s.stop.offset = some s

theorem isOf_of_ofTemplate? {source : String} {start stop : UInt32} {s : SourceSpan}
    (h : ofTemplate? source start stop = some s) :
    s.start.offset = start ∧ s.stop.offset = stop ∧ s.IsOf source := by
  obtain ⟨-, hs, ht⟩ := eq_of_ofTemplate? h
  have hstart : s.start.offset = start := congrArg Position.offset hs
  have hstop : s.stop.offset = stop := congrArg Position.offset ht
  refine ⟨hstart, hstop, ?_⟩
  rw [IsOf, hstart, hstop]
  exact h

theorem IsOf.slice? {source : String} {s : SourceSpan} (h : s.IsOf source) :
    Text.slice? source.toList s.start.offset.toNat s.stop.offset.toNat = some s.source.toList :=
  (eq_of_ofTemplate? h).1

theorem IsOf.start_le_stop {source : String} {s : SourceSpan} (h : s.IsOf source) :
    s.start.offset.toNat ≤ s.stop.offset.toNat := by
  obtain ⟨-, -, -, -, hstop⟩ := slice?_eq_some_iff.mp h.slice?
  omega

/-- An empty span has no box. -/
theorem IsOf.not_hasBox {source : String} {s : SourceSpan} (h : s.IsOf source)
    (hempty : s.start.offset.toNat = s.stop.offset.toNat) :
    ¬ BananaInBox.HasBox (BananaInBox.attributeKey s.source.toList) := by
  obtain ⟨-, -, -, -, hstop⟩ := slice?_eq_some_iff.mp h.slice?
  have hnil : s.source.toList = [] := byteLength_eq_zero (by omega)
  rw [hnil]
  exact BananaInBox.not_hasBox_nil

end SourceSpan

/-- The swapped box in the key of the attribute makes a box again. -/
def BoundEvent.Relapses (event : BoundEvent) : Prop :=
  BananaInBox.Bracketed event.name.toList ∧ ∃ before inner after,
    BananaInBox.Split (BananaInBox.attributeKey event.span.source.toList) before inner after ∧
      BananaInBox.Relapses before inner after

namespace BananaInBox

/-- A text has one first `([` and one last `])`. -/
theorem Split.unique {key before inner after before' inner' after' : List Char}
    (h : Split key before inner after) (h' : Split key before' inner' after') :
    before = before' ∧ inner = inner' ∧ after = after' := by
  have hfirst := h.firstPair?_eq.symm.trans h'.firstPair?_eq
  have hlast := h.lastPair?_eq.symm.trans h'.lastPair?_eq
  rw [Option.some.injEq] at hfirst hlast
  have hkey : before ++ ('(' :: '[' :: inner ++ ']' :: ')' :: after) =
      before' ++ ('(' :: '[' :: inner' ++ ']' :: ')' :: after') := by
    rw [← List.append_assoc, ← h.key_eq, h'.key_eq, List.append_assoc]
  obtain ⟨rfl, hrest⟩ := append_inj_of_byteLength hkey hfirst
  simp only [List.cons_append, List.cons.injEq, true_and] at hrest
  obtain ⟨rfl, hafter⟩ := append_inj_of_byteLength hrest (by omega)
  simp only [List.cons.injEq, true_and] at hafter
  exact ⟨rfl, rfl, hafter⟩

/-- The value of the attribute stays where it is, so that the key of the fixed attribute is the key
with the box swapped. -/
theorem Split.isKey_swapped {text before inner after : List Char}
    (h : Split (attributeKey text) before inner after) :
    ∃ rest, text = before ++ boxText inner ++ (after ++ rest) ∧
      IsKey (before ++ swappedText inner ++ (after ++ rest))
        (before ++ swappedText inner ++ after) := by
  obtain ⟨hkey, htext⟩ := isKey_attributeKey text
  have hrest : ∃ rest, text = attributeKey text ++ rest ∧
      (rest = [] ∨ ∃ value, rest = '=' :: value) := by
    rcases htext with htext | ⟨value, htext⟩
    · exact ⟨[], by rw [List.append_nil]; exact htext, Or.inl rfl⟩
    · exact ⟨'=' :: value, htext, Or.inr ⟨value, rfl⟩⟩
  obtain ⟨rest, htext, hrest⟩ := hrest
  refine ⟨rest, ?_, ?_, ?_⟩
  · calc
      text = attributeKey text ++ rest := htext
      _ = before ++ boxText inner ++ (after ++ rest) := by
        rw [h.key_eq_append, List.append_assoc _ after]
  · intro hmem
    apply hkey
    rw [h.key_eq_append]
    rcases List.mem_append.mp hmem with hmem | hafter
    · apply List.mem_append_left
      rcases List.mem_append.mp hmem with hbefore | hbox
      · exact List.mem_append_left _ hbefore
      · exact List.mem_append_right _ (swappedText_subset inner hbox)
    · exact List.mem_append_right _ hafter
  · rcases hrest with rfl | ⟨value, rfl⟩
    · exact Or.inl (by rw [List.append_nil])
    · exact Or.inr ⟨value, by rw [List.append_assoc _ after]⟩

/-- What is reported about an event binding at the level that the rule has by itself. -/
def found (source filename : String) (event : BoundEvent) : List Diagnostic :=
  Note.reports none (answer source filename event)

/-- The warnings that an event binding gives rise to. -/
def warnings (source filename : String) (event : BoundEvent) : List LogEvent :=
  (Note.logs (answer source filename event)).filter (·.level = .warn)

/-- The edits of all fixes of the diagnostics. -/
def editsOf (ds : List Diagnostic) : List TextEdit :=
  (ds.filterMap Diagnostic.fix).flatMap Fix.edits

theorem editsOf_append (ds ds' : List Diagnostic) :
    editsOf (ds ++ ds') = editsOf ds ++ editsOf ds' := by
  unfold editsOf
  rw [List.filterMap_append, List.flatMap_append]

theorem exists_of_mem_editsOf {source filename : String} {events : List BoundEvent} {e : TextEdit}
    (he : e ∈ editsOf (events.flatMap (found source filename))) :
    ∃ x ∈ events, e ∈ editsOf (found source filename x) := by
  unfold editsOf at he ⊢
  rw [List.filterMap_flatMap, List.flatMap_assoc] at he
  exact List.mem_flatMap.mp he

section Span
variable {source filename : String} {event : BoundEvent}

theorem found_eq_nil (h : ¬ (detect event.name.toList = true ∧
    HasBox (attributeKey event.span.source.toList))) : found source filename event = [] := by
  rw [found, answer, check_eq_nil h]
  rfl

variable (filename) in
/-- A span cut out of the template never fails to match it, so a box in it is reported. -/
theorem exists_found_of_split {before inner after rest : List Char} (hspan : event.span.IsOf source)
    (hname : detect event.name.toList = true)
    (h : Split (attributeKey event.span.source.toList) before inner after)
    (htext : event.span.source.toList = before ++ boxText inner ++ (after ++ rest)) :
    ∃ d, found source filename event = [d] ∧ editsOf [d] = [swapEdit d inner] ∧
      Repairs source.toList d inner ∧
      slice? source.toList event.span.start.offset.toNat d.start.toNat = some before ∧
      slice? source.toList d.stop.toNat event.span.stop.offset.toNat = some (after ++ rest) := by
  obtain ⟨hleft, hafter⟩ := slice?_of_append (htext ▸ hspan.slice?)
  obtain ⟨hbefore, hslice⟩ := slice?_of_append hleft
  have hlt := event.span.stop.offset.toNat_lt_size
  obtain ⟨-, -, -, -, hend⟩ := slice?_eq_some_iff.mp hafter
  rw [byteLength_append, byteLength_boxText, ← Nat.add_assoc] at hslice hafter hend
  obtain ⟨start, hstart⟩ := exists_offset
    (show event.span.start.offset.toNat + byteLength before < _ by omega)
  obtain ⟨stop, hstop⟩ := exists_offset (show start.toNat + (byteLength inner + 4) < _ by omega)
  rw [← hstart, ← hstop] at hslice hafter
  rw [← hstart] at hbefore
  have hrange := h.templateRange?_eq_some_iff.mpr ⟨hstart, hstop, hslice⟩
  refine ⟨diagnosticOf (boxBehind before inner) start stop, ?_, rfl, ⟨hslice, _, rfl⟩, hbefore,
    hafter⟩
  rw [found, answer, check_of_split hname h]
  simp only [Context.start, hrange]
  rfl

variable (filename) in
/-- A report lies in the span of its event. -/
theorem found_eq_nil_or_singleton (hspan : event.span.IsOf source) :
    found source filename event = [] ∨ ∃ d inner, found source filename event = [d] ∧
      editsOf [d] = [swapEdit d inner] ∧ Repairs source.toList d inner ∧
      event.span.start.offset.toNat ≤ d.start.toNat ∧
      d.stop.toNat ≤ event.span.stop.offset.toNat := by
  by_cases hs : detect event.name.toList = true ∧ HasBox (attributeKey event.span.source.toList)
  · obtain ⟨hname, hbox⟩ := hs
    obtain ⟨before, inner, after, h⟩ := exists_split hbox
    obtain ⟨rest, htext, -⟩ := h.isKey_swapped
    obtain ⟨d, hd, hedits, hrepairs, hbefore, hafter⟩ :=
      exists_found_of_split filename hspan hname h htext
    obtain ⟨-, -, -, -, hstart⟩ := slice?_eq_some_iff.mp hbefore
    obtain ⟨-, -, -, -, hstop⟩ := slice?_eq_some_iff.mp hafter
    exact Or.inr ⟨d, inner, hd, hedits, hrepairs, by omega, by omega⟩
  · exact Or.inl (found_eq_nil hs)

theorem found_eq_nil_iff (hspan : event.span.IsOf source) :
    found source filename event = [] ↔
      ¬ (detect event.name.toList = true ∧ HasBox (attributeKey event.span.source.toList)) := by
  constructor
  · rintro hnil ⟨hname, hbox⟩
    obtain ⟨before, inner, after, h⟩ := exists_split hbox
    obtain ⟨rest, htext, -⟩ := h.isKey_swapped
    obtain ⟨d, hd, -⟩ := exists_found_of_split filename hspan hname h htext
    rw [hd] at hnil
    exact absurd hnil (List.cons_ne_nil _ _)
  · exact found_eq_nil

variable (filename) in
/-- What the fix makes of the attribute, and when that is reported again. -/
theorem exists_splice?_found (hspan : event.span.IsOf source) :
    ∃ part, TextEdit.splice? source.toList event.span.start.offset.toNat
        event.span.stop.offset.toNat (editsOf (found source filename event)) = some part ∧
      (detect event.name.toList = true ∧ HasBox (attributeKey part) ↔ event.Relapses) := by
  by_cases hs : detect event.name.toList = true ∧ HasBox (attributeKey event.span.source.toList)
  · obtain ⟨hname, hbox⟩ := hs
    obtain ⟨before, inner, after, h⟩ := exists_split hbox
    obtain ⟨rest, htext, hkey⟩ := h.isKey_swapped
    obtain ⟨d, hd, hedits, -, hbefore, hafter⟩ :=
      exists_found_of_split filename hspan hname h htext
    refine ⟨before ++ swappedText inner ++ (after ++ rest), ?_, ?_⟩
    · rw [hd, hedits]
      refine TextEdit.splice?_cons_eq_some_iff.mpr ⟨before, after ++ rest, hbefore, hafter, ?_⟩
      rw [swapEdit, String.toList_ofList]
    · rw [hkey.eq, h.hasBox_swapped_iff, detect_iff]
      constructor
      · rintro ⟨hname, hrelapse⟩
        exact ⟨hname, before, inner, after, h, hrelapse⟩
      · rintro ⟨hname, before', inner', after', h', hrelapse⟩
        obtain ⟨rfl, rfl, rfl⟩ := h.unique h'
        exact ⟨hname, hrelapse⟩
  · refine ⟨event.span.source.toList, ?_, ?_⟩
    · rw [found_eq_nil hs]
      exact hspan.slice?
    · constructor
      · intro h
        exact absurd h hs
      · rintro ⟨hname, before, inner, after, h, -⟩
        exact absurd ⟨detect_iff.mpr hname, h.hasBox⟩ hs

end Span

end BananaInBox

namespace Linter
open BananaInBox

theorem diagnostics_recommended (root : RootNode) (filename : String) :
    (recommended.lint root filename).diagnostics =
      root.events.flatMap (found root.source filename) :=
  (lintLogged_of_activeRules root filename (show recommended.activeRules = [⟨bananaInBox, none⟩]
    from rfl)).1

/-- The events at which a run begins and ends are no warnings. -/
theorem warnings_recommended (root : RootNode) (filename : String) :
    (recommended.lintLogged root filename).2.filter (·.level = .warn) =
      root.events.flatMap (warnings root.source filename) := by
  obtain ⟨-, hlog⟩ :=
    lintLogged_of_activeRules root filename (show recommended.activeRules = [⟨bananaInBox, none⟩]
      from rfl)
  have hstart : (startEvent root filename recommended.activeRules).level ≠ .warn := by
    simp [startEvent]
  have hend : (endEvent (recommended.lint root filename)).level ≠ .warn := by
    simp [endEvent]
  rw [hlog, List.filter_append, List.filter_cons, List.filter_flatMap]
  simp only [hstart, hend, decide_false, Bool.false_eq_true, ↓reduceIte, List.filter_cons_of_neg,
    not_false_eq_true, List.filter_nil, List.append_nil]
  rfl

end Linter
end TemplateLint
