import TemplateLint.Proofs.Json.Layout
import TemplateLint.Proofs.Json.Nesting
import TemplateLint.Proofs.Text.Lines
import TemplateLint.Report.Format

/-! What is said about a diagnostic in both formats: its line and column are those of its offsets in
the template of its own file, whatever order the templates are given in. -/
namespace TemplateLint

open Json (Value)
open Text (LineIndex)

namespace Json

/-- A strict reader that allows for the usual nesting takes the whole text for the value. -/
def IsJson (text : String) (v : Value) : Prop :=
  ∃ t, Spells text t ∧ t.readError? maxDepth = none ∧ t.value? = some v

theorem isJson_pretty {v : Value} (hsmall : v.Small) (hdepth : v.depth ≤ maxDepth) :
    IsJson v.pretty v := by
  obtain ⟨t, hspells, hvalue⟩ := exists_spells_pretty v hsmall
  have hstops := t.stopsTooDeep maxDepth hvalue
  cases hread : t.readError? maxDepth with
  | none => exact ⟨t, hspells, hread, hvalue⟩
  | some e =>
    rw [hread] at hstops
    exact absurd hstops.1 (Nat.not_lt.mpr hdepth)

end Json

namespace Report

theorem Sources.find_eq {sources : Sources} {filename source : String}
    (h : ∀ s, (filename, s) ∈ sources ↔ s = source) : sources.find filename = source := by
  cases hlookup : sources.reverse.lookup filename with
  | none =>
    have hnone := List.lookup_eq_none_iff.mp hlookup (filename, source)
      (List.mem_reverse.mpr ((h source).mpr rfl))
    simp at hnone
  | some s =>
    obtain ⟨before, after, hsplit, -⟩ := List.lookup_eq_some_iff.mp hlookup
    have hmem : (filename, s) ∈ sources.reverse := hsplit ▸ List.mem_append_cons_self
    rw [find, hlookup, Option.getD_some, (h s).mp (List.mem_reverse.mp hmem)]

/-- An object that describes a diagnostic of a template with these lines. -/
structure Shows (index : LineIndex) (d : Diagnostic) (members : List (String × Value)) : Prop where
  distinct : (members.map Prod.fst).Nodup
  rule : members.lookup "ruleId" = some (.string d.rule)
  severity : members.lookup "severity" = some (.natural (if d.severity = .error then 2 else 1))
  message : members.lookup "message" = some (.string d.message)
  start : (members.lookup "line", members.lookup "column") =
    (some (.natural (index.lineColumn d.start.toNat).1),
      some (.natural (index.lineColumn d.start.toNat).2))
  stop : (members.lookup "endLine", members.lookup "endColumn") =
    (some (.natural (index.lineColumn d.stop.toNat).1),
      some (.natural (index.lineColumn d.stop.toNat).2))
  fix : (members.lookup "fix").isSome ↔ ∃ f, d.fix = some f ∧ f.edits ≠ []

/-- An object that describes what was found in a template. -/
structure ShowsResult (r : LintResult) (source : String) (members : List (String × Value)) :
    Prop where
  distinct : (members.map Prod.fst).Nodup
  file : members.lookup "file" = some (.string r.filename)
  errors : members.lookup "errorCount" = some (.natural r.errors)
  warnings : members.lookup "warningCount" = some (.natural r.warnings)
  messages : ∃ objects, members.lookup "messages" = some (.array (objects.map .object)) ∧
    List.Forall₂ (Shows (LineIndex.ofString source)) r.diagnostics objects

theorem fixMember_eq_nil_or (d : Diagnostic) :
    (fixMember d = [] ∧ ¬∃ f, d.fix = some f ∧ f.edits ≠ []) ∨
      ∃ f e edits, d.fix = some f ∧ f.edits = e :: edits ∧
        fixMember d = [("fix", .object
          [("range", .array [.natural e.start.toNat, .natural e.stop.toNat]),
            ("text", .string e.newText)])] := by
  cases hfix : d.fix with
  | none => exact .inl (by simp [fixMember, hfix])
  | some f =>
    cases hedits : f.edits with
    | nil => exact .inl (by simp [fixMember, hfix, hedits])
    | cons e edits => exact .inr ⟨f, e, edits, rfl, hedits, by simp [fixMember, hfix, hedits]⟩

theorem exists_messageValue_eq (index : LineIndex) (d : Diagnostic) :
    ∃ members, messageValue index d = .object members ∧ Shows index d members := by
  refine ⟨_, rfl, ?_⟩
  rcases fixMember_eq_nil_or d with ⟨hmember, hnone⟩ | ⟨f, e, edits, hf, hedits, hmember⟩
  · rw [hmember]
    exact ⟨by simp, rfl, by cases d.severity <;> rfl, rfl, rfl, rfl, by simpa using hnone⟩
  · rw [hmember]
    exact ⟨by simp, rfl, by cases d.severity <;> rfl, rfl, rfl, rfl,
      ⟨fun _ => ⟨f, hf, hedits ▸ List.cons_ne_nil e edits⟩, fun _ => rfl⟩⟩

theorem exists_map_object_eq {α : Type} {f : α → Value} {R : α → List (String × Value) → Prop}
    (as : List α) (h : ∀ a ∈ as, ∃ members, f a = .object members ∧ R a members) :
    ∃ objects, as.map f = objects.map .object ∧ List.Forall₂ R as objects := by
  induction as with
  | nil => exact ⟨[], rfl, .nil⟩
  | cons a as ih =>
    obtain ⟨ha, has⟩ := List.forall_mem_cons.mp h
    obtain ⟨object, hobject, hR⟩ := ha
    obtain ⟨objects, hobjects, hall⟩ := ih has
    exact ⟨object :: objects, by simp only [List.map_cons, hobject, hobjects], .cons hR hall⟩

theorem exists_resultValue_eq {sources : Sources} {r : LintResult} {source : String}
    (h : sources.find r.filename = source) :
    ∃ members, resultValue sources r = .object members ∧ ShowsResult r source members := by
  obtain ⟨objects, hobjects, hall⟩ :=
    exists_map_object_eq r.diagnostics fun d _ =>
      exists_messageValue_eq (LineIndex.ofString source) d
  refine ⟨_, rfl, by simp, rfl, rfl, rfl, objects, ?_, hall⟩
  rw [← hobjects, ← h]
  rfl

/-! Sizes -/

theorem small_offset (n : UInt32) : Value.Small (.natural n.toNat) := by
  have := n.toNat_lt
  exact .natural (by simp only [Json.maxSignificand, UInt64.size]; omega)

theorem small_lineColumn (text : List Char) (n : UInt32) :
    Value.Small (.natural ((LineIndex.ofText text).lineColumn n.toNat).1) ∧
      Value.Small (.natural ((LineIndex.ofText text).lineColumn n.toNat).2) := by
  have hsize := n.toNat_lt
  have hle := LineIndex.lineColumn_le text n.toNat
  constructor <;> exact .natural (by simp only [Json.maxSignificand, UInt64.size]; omega)

theorem small_fixMember {d : Diagnostic} {m : String × Value} (h : m ∈ fixMember d) :
    m.2.Small := by
  rcases fixMember_eq_nil_or d with ⟨hmember, -⟩ | ⟨f, e, edits, -, -, hmember⟩
  · simp [hmember] at h
  · obtain rfl := List.mem_singleton.mp (hmember ▸ h)
    refine .object (List.forall_mem_cons.mpr ⟨.array ?_, List.forall_mem_singleton.mpr (.string _)⟩)
    exact List.forall_mem_cons.mpr
      ⟨small_offset e.start, List.forall_mem_singleton.mpr (small_offset e.stop)⟩

theorem small_messageValue (text : List Char) (d : Diagnostic) :
    (messageValue (.ofText text) d).Small := by
  obtain ⟨hline, hcolumn⟩ := small_lineColumn text d.start
  obtain ⟨hendLine, hendColumn⟩ := small_lineColumn text d.stop
  have hseverity : Value.Small (.natural (severityCode d.severity)) :=
    .natural (by cases d.severity <;> decide)
  refine .object fun m hm => ?_
  rcases List.mem_append.mp hm with hm | hm
  · simp only [List.mem_cons, List.not_mem_nil, or_false] at hm
    rcases hm with rfl | rfl | rfl | rfl | rfl | rfl | rfl <;>
      first | assumption | exact .string _
  · exact small_fixMember hm

theorem small_resultValue (sources : Sources) {r : LintResult}
    (herrors : r.errors ≤ Json.maxSignificand) (hwarnings : r.warnings ≤ Json.maxSignificand) :
    (resultValue sources r).Small := by
  refine .object fun m hm => ?_
  simp only [List.mem_cons, List.not_mem_nil, or_false] at hm
  rcases hm with rfl | rfl | rfl | rfl
  · exact .string _
  · refine .array fun v hv => ?_
    obtain ⟨d, -, rfl⟩ := List.mem_map.mp hv
    exact small_messageValue _ d
  · exact .natural herrors
  · exact .natural hwarnings

theorem depth_messageValue_le (index : LineIndex) (d : Diagnostic) :
    (messageValue index d).depth ≤ 3 := by
  rcases fixMember_eq_nil_or d with ⟨hmember, -⟩ | ⟨f, e, edits, -, -, hmember⟩ <;>
    simp [messageValue, hmember, Value.depth, Value.membersDepth, Value.itemsDepth]

theorem depth_resultValue_le (sources : Sources) (r : LintResult) :
    (resultValue sources r).depth ≤ 5 := by
  have hmessages : Value.itemsDepth (r.diagnostics.map
      (messageValue (.ofString (sources.find r.filename)))) ≤ 3 := by
    rw [Value.itemsDepth_le_iff]
    rintro v hv
    obtain ⟨d, -, rfl⟩ := List.mem_map.mp hv
    exact depth_messageValue_le _ d
  simp only [resultValue, Value.depth, Value.membersDepth]
  omega

theorem isJson_jsonReport {results : List LintResult} (sources : Sources)
    (hcounts : ∀ r ∈ results, r.errors ≤ Json.maxSignificand ∧ r.warnings ≤ Json.maxSignificand) :
    Json.IsJson (jsonReport results sources) (.array (results.map (resultValue sources))) := by
  refine Json.isJson_pretty (.array fun v hv => ?_) ?_
  · obtain ⟨r, hr, rfl⟩ := List.mem_map.mp hv
    exact small_resultValue sources (hcounts r hr).1 (hcounts r hr).2
  · have hresults : Value.itemsDepth (results.map (resultValue sources)) ≤ 5 := by
      rw [Value.itemsDepth_le_iff]
      rintro v hv
      obtain ⟨r, -, rfl⟩ := List.mem_map.mp hv
      exact depth_resultValue_le sources r
    have hroom : 6 ≤ Json.maxDepth := by decide
    rw [Value.depth]
    omega

/-! The text for a terminal -/

/-- The line above a diagnostic that is shown at a line and a column. -/
def headLineAt (filename : String) (place : Nat × Nat) (d : Diagnostic) : String :=
  filename ++ ":" ++ toString place.1 ++ ":" ++ toString place.2 ++ "  " ++ d.severity.name ++
    "  " ++ d.rule ++ "\n"

/-- What stands below that line. -/
def drawing (filename source : String) (d : Diagnostic) : String :=
  (snippet? filename source.toList d).getD "" ++
    (d.fix.elim "" fun f => "  fix: " ++ f.message ++ "\n") ++ "\n"

theorem diagnosticText_eq (filename source : String) (d : Diagnostic) :
    diagnosticText filename source (.ofString source) d =
      headLineAt filename ((LineIndex.ofString source).lineColumn d.start.toNat) d ++
        drawing filename source d := by
  cases hfix : d.fix <;>
    simp [diagnosticText, headLine, headLineAt, drawing, hfix, String.append_assoc]

theorem drawing_ne_empty (filename source : String) (d : Diagnostic) :
    drawing filename source d ≠ "" := by
  simp [drawing]

theorem join_flatMap {α : Type} (f : α → List String) (as : List α) :
    String.join (as.flatMap f) = String.join (as.map fun a => String.join (f a)) := by
  induction as with
  | nil => rfl
  | cons a as ih =>
    rw [List.flatMap_cons, String.join_append, ih, List.map_cons, String.join_cons]

theorem join_eq_empty_iff {ss : List String} : String.join ss = "" ↔ ∀ s ∈ ss, s = "" := by
  induction ss with
  | nil => simp
  | cons s ss ih => rw [String.join_cons, String.append_eq_empty_iff, ih, List.forall_mem_cons]

theorem resultText_eq {sources : Sources} {r : LintResult} {source : String}
    (h : sources.find r.filename = source) :
    resultText sources r = String.join (r.diagnostics.map fun d =>
      headLineAt r.filename ((LineIndex.ofString source).lineColumn d.start.toNat) d ++
        drawing r.filename source d) := by
  subst h
  simp only [← diagnosticText_eq]
  rfl

section Files
variable {files : List (LintResult × String)} {sources : Sources}
  (hsources : ∀ file ∈ files, ∀ source, (file.1.filename, source) ∈ sources ↔ source = file.2)
include hsources

theorem exists_map_resultValue_eq : ∃ entries,
    (files.map Prod.fst).map (resultValue sources) = entries.map .object ∧
      List.Forall₂ (fun file => ShowsResult file.1 file.2) files entries := by
  rw [List.map_map]
  exact exists_map_object_eq files fun file hfile =>
    exists_resultValue_eq (Sources.find_eq (hsources file hfile))

theorem textReport_eq : textReport (files.map Prod.fst) sources =
    String.join (files.flatMap fun (r, source) => r.diagnostics.map fun d =>
      headLineAt r.filename ((LineIndex.ofString source).lineColumn d.start.toNat) d ++
        drawing r.filename source d) := by
  rw [textReport, List.map_map, join_flatMap]
  exact congrArg String.join (List.map_congr_left fun file hfile =>
    resultText_eq (Sources.find_eq (hsources file hfile)))

theorem textReport_eq_empty_iff : textReport (files.map Prod.fst) sources = "" ↔
    ∀ file ∈ files, file.1.diagnostics = [] := by
  rw [textReport_eq hsources, join_eq_empty_iff]
  constructor
  · intro h file hfile
    refine List.eq_nil_iff_forall_not_mem.mpr fun d hd => ?_
    have hempty := h _ (List.mem_flatMap.mpr ⟨file, hfile, List.mem_map.mpr ⟨d, hd, rfl⟩⟩)
    exact drawing_ne_empty _ _ d (String.append_eq_empty_iff.mp hempty).2
  · intro h s hs
    obtain ⟨file, hfile, hs⟩ := List.mem_flatMap.mp hs
    simp [h file hfile] at hs

/-- Both formats tell the same of every result in turn, wherever its template stands among those of
the run: each diagnostic in its order, at the lines and columns of its offsets there. -/
theorem report_positions
    (hcounts : ∀ file ∈ files,
      file.1.errors ≤ Json.maxSignificand ∧ file.1.warnings ≤ Json.maxSignificand) :
    (∃ entries,
      Json.IsJson (Format.json.report (files.map Prod.fst) sources)
        (.array (entries.map .object)) ∧
      List.Forall₂ (fun file => ShowsResult file.1 file.2) files entries) ∧
    Format.text.report (files.map Prod.fst) sources =
      String.join (files.flatMap fun (r, source) => r.diagnostics.map fun d =>
        headLineAt r.filename ((LineIndex.ofString source).lineColumn d.start.toNat) d ++
          drawing r.filename source d) ∧
    (Format.text.report (files.map Prod.fst) sources = "" ↔
      ∀ file ∈ files, file.1.diagnostics = []) := by
  obtain ⟨entries, hentries, hall⟩ := exists_map_resultValue_eq hsources
  refine ⟨⟨entries, hentries ▸ isJson_jsonReport sources fun r hr => ?_, hall⟩,
    textReport_eq hsources, textReport_eq_empty_iff hsources⟩
  obtain ⟨file, hfile, rfl⟩ := List.mem_map.mp hr
  exact hcounts file hfile

end Files

theorem report_positions_second_line :
    let d : Diagnostic := ⟨"rule", .warning, "\"é\"", 3, 99, none, some ⟨"", []⟩⟩
    let files : List (LintResult × String) :=
      [(⟨"b", [d], 0, 1⟩, "é\n([x])"), (⟨"a", [], 0, 0⟩, "")]
    let sources : Sources := [("a", ""), ("b", "é\n([x])")]
    (∀ file ∈ files, ∀ source, (file.1.filename, source) ∈ sources ↔ source = file.2) ∧
    (∀ file ∈ files,
      file.1.errors ≤ Json.maxSignificand ∧ file.1.warnings ≤ Json.maxSignificand) ∧
    (∃ entries,
      Json.IsJson (Format.json.report (files.map Prod.fst) sources)
        (.array (entries.map .object)) ∧
      List.Forall₂ (fun file => ShowsResult file.1 file.2) files entries) ∧
    Format.text.report (files.map Prod.fst) sources =
      "b:2:1  warning  rule\n" ++ drawing "b" "é\n([x])" d := by
  intro d files sources
  have hsources : ∀ file ∈ files, ∀ source,
      (file.1.filename, source) ∈ sources ↔ source = file.2 := by
    simp [files, sources]
  have hcounts : ∀ file ∈ files,
      file.1.errors ≤ Json.maxSignificand ∧ file.1.warnings ≤ Json.maxSignificand := by
    simp [files, Json.maxSignificand, UInt64.size]
  obtain ⟨hjson, htext, -⟩ := report_positions hsources hcounts
  have hhead : headLineAt "b" ((LineIndex.ofString "é\n([x])").lineColumn d.start.toNat) d =
      "b:2:1  warning  rule\n" := by
    decide +kernel
  refine ⟨hsources, hcounts, hjson, ?_⟩
  calc Format.text.report (files.map Prod.fst) sources
      = String.join [headLineAt "b" ((LineIndex.ofString "é\n([x])").lineColumn d.start.toNat) d ++
          drawing "b" "é\n([x])" d] := htext
    _ = "b:2:1  warning  rule\n" ++ drawing "b" "é\n([x])" d := by
      rw [hhead, String.join_cons, String.join_nil, String.append_empty]

end Report
end TemplateLint
