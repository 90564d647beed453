import TemplateLint.Proofs.Diagnostic.Single
import TemplateLint.Proofs.Lint.Attributes

/-! Event bindings with spans that are cut out of the template. No box in such a binding is missed,
its report stands in the key of the attribute, and the fix leaves the value alone. -/
namespace TemplateLint
open Text

namespace BananaInBox

/-- A report in the key of an attribute that begins at byte `base`, with the text that making its
fix alone leaves: all of the template but the box. -/
structure KeyReport (template : String) (base : Nat) (text : List Char) (d : Diagnostic)
    (output : String) : Prop where
  within : base ≤ d.start.toNat ∧ d.stop.toNat ≤ base + byteLength (attributeKey text)
  /-- What is reported begins with `([` and ends with `])`. -/
  around : ∃ front inner new behind,
    template.toList = front ++ ('(' :: '[' :: inner ++ [']', ')']) ++ behind ∧
    byteLength front = d.start.toNat ∧
    byteLength front + byteLength ('(' :: '[' :: inner ++ [']', ')']) = d.stop.toNat ∧
    output.toList = front ++ new ++ behind
  fix : ∃ f, d.fix = some f ∧ f.apply template = output
  outcome : applyFixes? template [d] = some ⟨output, 1, 0⟩
  value : ∀ value, text = attributeKey text ++ '=' :: value →
    ∃ front key behind, template.toList = front ++ text ++ behind ∧
      byteLength front = base ∧ output.toList = front ++ (key ++ '=' :: value) ++ behind

variable {source filename : String} {event : BoundEvent}

/-- An event gives rise to a report or a warning, and not to both. -/
theorem warnings_eq_nil_of_found (h : found source filename event ≠ []) :
    warnings source filename event = [] := by
  have hverdict : Verdict source.toList event (found source filename event)
    (warnings source filename event) := verdict_check event (.start source filename)
  generalize found source filename event = reports at h hverdict
  generalize warnings source filename event = ws at hverdict ⊢
  cases hverdict with
  | reported => rfl
  | mismatched => exact absurd rfl h
  | silent => rfl

theorem warnings_eq_nil (h : ¬ (detect event.name.toList = true ∧
    HasBox (attributeKey event.span.source.toList))) : warnings source filename event = [] := by
  rw [warnings, answer, check_eq_nil h]
  rfl

/-- The template around a span that is cut out of it. -/
theorem exists_around_span (hspan : event.span.IsOf source) : ∃ front behind,
    source.toList = front ++ event.span.source.toList ++ behind ∧
      byteLength front = event.span.start.offset.toNat := by
  obtain ⟨front, behind, hsource, hfront, -⟩ := slice?_eq_some_iff.mp hspan.slice?
  exact ⟨front, behind, hsource, hfront⟩

variable (filename) in
theorem exists_keyReport {before inner after : List Char} (hspan : event.span.IsOf source)
    (hname : detect event.name.toList = true)
    (h : Split (attributeKey event.span.source.toList) before inner after) :
    ∃ d output, found source filename event = [d] ∧
      KeyReport source event.span.start.offset.toNat event.span.source.toList d output := by
  obtain ⟨rest, htext, -⟩ := h.isKey_swapped
  obtain ⟨d, hfound, -, hrepairs, hbefore, -⟩ :=
    exists_found_of_split filename hspan hname h htext
  obtain ⟨front, behind, hsource, hfront⟩ := exists_around_span hspan
  obtain ⟨message, hfix⟩ := hrepairs.fix
  obtain ⟨-, -, -, -, hstart⟩ := slice?_eq_some_iff.mp hbefore
  have hstop := hrepairs.start_add
  have hkey := congrArg byteLength h.key_eq_append
  rw [byteLength_append, byteLength_append, byteLength_boxText] at hkey
  have hparts : source.toList =
      (front ++ before) ++ boxText inner ++ (after ++ (rest ++ behind)) := by
    rw [hsource, htext]
    simp only [List.append_assoc]
  have hlength : byteLength (front ++ before) = d.start.toNat := by
    rw [byteLength_append, hfront, hstart]
  have hbox : d.start.toNat + byteLength (boxText inner) = d.stop.toNat := by
    rw [byteLength_boxText, hstop]
  have hnew : (swapEdit d inner).newText.toList = swappedText inner := String.toList_ofList
  refine ⟨d, String.ofList ((front ++ before) ++ swappedText inner ++
    (after ++ (rest ++ behind))), hfound, ?_⟩
  constructor
  · omega
  · exact ⟨front ++ before, inner, swappedText inner, after ++ (rest ++ behind), hparts, hlength,
      by rw [hlength]; exact hbox, String.toList_ofList⟩
  · refine ⟨_, hfix, ?_⟩
    rw [← hnew]
    exact Fix.apply_single (e := swapEdit d inner) hparts hlength hbox
  · rw [← hnew]
    exact applyFixes?_single (e := swapEdit d inner) hparts hlength hbox hfix
  · intro value hvalue
    have hrest : rest = '=' :: value := by
      have hsame := htext.symm.trans hvalue
      rw [h.key_eq_append, ← List.append_assoc _ after] at hsame
      exact List.append_cancel_left hsame
    refine ⟨front, before ++ swappedText inner ++ after, behind, hsource, hfront, ?_⟩
    rw [String.toList_ofList, hrest]
    simp only [List.append_assoc, List.cons_append]

variable (filename) in
/-- What is said about an event binding whose span is cut out of the template. -/
theorem found_of_ofTemplate? {start stop : UInt32}
    (hspan : SourceSpan.ofTemplate? source start stop = some event.span) :
    warnings source filename event = [] ∧
      (found source filename event ≠ [] ↔ detect event.name.toList = true ∧
        (locate? (attributeKey event.span.source.toList)).isSome = true) ∧
      ∀ d ∈ found source filename event, found source filename event = [d] ∧
        ∃ output, KeyReport source start.toNat event.span.source.toList d output := by
  obtain ⟨hstart, -, hof⟩ := SourceSpan.isOf_of_ofTemplate? hspan
  rw [isSome_locate?_iff]
  by_cases hs : detect event.name.toList = true ∧ HasBox (attributeKey event.span.source.toList)
  · obtain ⟨before, inner, after, h⟩ := exists_split hs.2
    obtain ⟨d, output, hfound, hreport⟩ := exists_keyReport filename hof hs.1 h
    rw [hstart] at hreport
    have hne : found source filename event ≠ [] := by
      rw [hfound]
      exact List.cons_ne_nil _ _
    refine ⟨warnings_eq_nil_of_found hne, iff_of_true hne hs, fun d' hd' => ?_⟩
    rw [hfound, List.mem_singleton] at hd'
    subst hd'
    exact ⟨hfound, output, hreport⟩
  · have hnil : found source filename event = [] := found_eq_nil hs
    refine ⟨warnings_eq_nil hs, iff_of_false (not_not.mpr hnil) hs, fun d hd => ?_⟩
    rw [hnil] at hd
    exact absurd hd List.not_mem_nil

end BananaInBox

namespace Linter
open BananaInBox

/-- What is said about event bindings with spans that are cut out of the template: never that the
span does not match, and a report exactly where the name is one of a box and the key has a box. The
report stands in the key, and its fix alone changes neither what is in front of it nor what is
behind it, with the `=` and the value. -/
theorem lint_keeps_values (root : RootNode) (filename : String) :
    (recommended.lint root filename).diagnostics =
      root.events.flatMap (found root.source filename) ∧
    (recommended.lintLogged root filename).2.filter (·.level = .warn) =
      root.events.flatMap (warnings root.source filename) ∧
    ∀ event ∈ root.events, ∀ start stop,
      SourceSpan.ofTemplate? root.source start stop = some event.span →
        warnings root.source filename event = [] ∧
        (found root.source filename event ≠ [] ↔ detect event.name.toList = true ∧
          (locate? (attributeKey event.span.source.toList)).isSome = true) ∧
        ∀ d ∈ found root.source filename event, found root.source filename event = [d] ∧
          ∃ output, KeyReport root.source start.toNat event.span.source.toList d output :=
  ⟨diagnostics_recommended root filename, warnings_recommended root filename,
    fun _ _ _ _ hspan => found_of_ofTemplate? filename hspan⟩

/-- A `])` in the value is not taken for the end of the box. -/
theorem lint_keeps_values_bracket_in_value :
    let event : BoundEvent :=
      ⟨"[a]", .regular, "b[0])", none, ⟨⟨3, 1, 4⟩, ⟨16, 1, 17⟩, "([a])=\"b[0])\""⟩, none⟩
    let root := RootNode.ofEvents "<x ([a])=\"b[0])\">" [event]
    SourceSpan.ofTemplate? root.source 3 16 = some event.span ∧
      ∃ d output, (recommended.lint root "t").diagnostics = [d] ∧
        KeyReport root.source 3 event.span.source.toList d output := by
  intro event root
  have hspan : SourceSpan.ofTemplate? root.source 3 16 = some event.span := by decide +kernel
  obtain ⟨hdiagnostics, -, hall⟩ := lint_keeps_values root "t"
  obtain ⟨-, hfound, hreport⟩ := hall event List.mem_cons_self 3 16 hspan
  obtain ⟨d, hd⟩ :=
    List.exists_mem_of_ne_nil _ (hfound.mpr ⟨by decide +kernel, by decide +kernel⟩)
  obtain ⟨hone, output, hkey⟩ := hreport d hd
  refine ⟨hspan, d, output, ?_, hkey⟩
  rw [hdiagnostics, show root.events = [event] from rfl, List.flatMap_singleton, hone]

end Linter
end TemplateLint
