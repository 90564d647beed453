import TemplateLint.Rule.Context

/-! What the notes of a rule leave behind in the context. -/
namespace TemplateLint
namespace Note

/-- The diagnostics among the notes, with the severity that the context gives them. -/
def reports (override : Option Severity) (notes : List Note) : List Diagnostic :=
  notes.filterMap fun
    | .report d => some { d with severity := override.getD d.severity }
    | .log _ => none

/-- The events for the log among the notes. -/
def logs (notes : List Note) : List LogEvent :=
  notes.filterMap fun
    | .report _ => none
    | .log e => some e

end Note

namespace Context

@[simp] theorem count_diagnostics (ctx : Context) (s : Severity) :
    (ctx.count s).diagnostics = ctx.diagnostics := by
  cases s <;> rfl

@[simp] theorem count_log (ctx : Context) (s : Severity) : (ctx.count s).log = ctx.log := by
  cases s <;> rfl

/-- Taking a note changes neither the template nor the rule that is being asked. -/
theorem note_frame (ctx : Context) (n : Note) :
    (ctx.note n).source = ctx.source ∧ (ctx.note n).filename = ctx.filename ∧
      (ctx.note n).override = ctx.override := by
  cases n with
  | report d =>
    simp only [note, report]
    cases ctx.override.getD d.severity <;> exact ⟨rfl, rfl, rfl⟩
  | log e => exact ⟨rfl, rfl, rfl⟩

theorem note_found (ctx : Context) (n : Note) :
    (ctx.note n).diagnostics.toList = ctx.diagnostics.toList ++ Note.reports ctx.override [n] ∧
      (ctx.note n).log.toList = ctx.log.toList ++ Note.logs [n] := by
  cases n with
  | report d => simp [note, report, Note.reports, Note.logs]
  | log e => simp [note, writeLog, Note.reports, Note.logs]

theorem foldl_note_frame (notes : List Note) (ctx : Context) :
    (notes.foldl note ctx).source = ctx.source ∧
      (notes.foldl note ctx).filename = ctx.filename := by
  induction notes generalizing ctx with
  | nil => exact ⟨rfl, rfl⟩
  | cons n ns ih =>
    obtain ⟨hsource, hname, -⟩ := note_frame ctx n
    exact ⟨(ih _).1.trans hsource, (ih _).2.trans hname⟩

theorem note_elements (ctx : Context) (n : Note) : (ctx.note n).elements = ctx.elements := by
  cases n with
  | report d =>
    simp only [note, report]
    cases ctx.override.getD d.severity <;> rfl
  | log e => rfl

/-- Taking notes leaves the open elements alone. -/
theorem foldl_note_elements (notes : List Note) (ctx : Context) :
    (notes.foldl note ctx).elements = ctx.elements := by
  induction notes generalizing ctx with
  | nil => rfl
  | cons n ns ih => exact (ih _).trans (note_elements ctx n)

theorem foldl_note_found (notes : List Note) (ctx : Context) :
    (notes.foldl note ctx).diagnostics.toList =
        ctx.diagnostics.toList ++ Note.reports ctx.override notes ∧
      (notes.foldl note ctx).log.toList = ctx.log.toList ++ Note.logs notes := by
  induction notes generalizing ctx with
  | nil => simp [Note.reports, Note.logs]
  | cons n ns ih =>
    obtain ⟨hreports, hlogs⟩ := note_found ctx n
    obtain ⟨ihreports, ihlogs⟩ := ih (ctx.note n)
    rw [List.foldl_cons, ihreports, ihlogs, hreports, hlogs, (note_frame ctx n).2.2]
    constructor
    · rw [List.append_assoc, ← List.singleton_append (l := ns)]
      simp only [Note.reports, List.filterMap_append]
    · rw [List.append_assoc, ← List.singleton_append (l := ns)]
      simp only [Note.logs, List.filterMap_append]

end Context
end TemplateLint
