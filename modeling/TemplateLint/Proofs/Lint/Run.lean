import TemplateLint.Lint.Linter
import TemplateLint.Proofs.Lint.Events
import TemplateLint.Proofs.Rule.Notes

/-! A run of the one rule through a template: what it reports and logs, event by event. -/
namespace TemplateLint

theorem ActiveRule.ask_frame (a : ActiveRule) (visit : Visit) (ctx : Context) :
    (a.ask visit ctx).source = ctx.source ∧ (a.ask visit ctx).filename = ctx.filename :=
  Context.foldl_note_frame _ _

theorem ActiveRule.ask_found (a : ActiveRule) (visit : Visit) (ctx : Context) :
    (a.ask visit ctx).diagnostics.toList = ctx.diagnostics.toList ++
        Note.reports a.override (a.notes (ctx.enterRule a.rule.name a.override) visit) ∧
      (a.ask visit ctx).log.toList = ctx.log.toList ++
        Note.logs (a.notes (ctx.enterRule a.rule.name a.override) visit) :=
  Context.foldl_note_found _ _

theorem Visit.arrive_frame (visit : Visit) (ctx : Context) :
    (visit.arrive ctx).source = ctx.source ∧ (visit.arrive ctx).filename = ctx.filename ∧
      (visit.arrive ctx).diagnostics = ctx.diagnostics ∧ (visit.arrive ctx).log = ctx.log := by
  cases visit <;> exact ⟨rfl, rfl, rfl, rfl⟩

namespace BananaInBox

/-- What the rule says about an event, in a template with this text and file name. -/
def answer (source filename : String) (event : BoundEvent) : List Note :=
  check event (.start source filename)

/-- The rule speaks up at the visit of an event binding only. -/
theorem notes_eq (override : Option Severity) (visit : Visit) (ctx : Context) :
    (ActiveRule.mk bananaInBox override).notes ctx visit =
      visit.event?.toList.flatMap (answer ctx.source ctx.filename) := by
  cases visit <;> try rfl
  exact (List.append_nil _).symm

theorem run_frame (override : Option Severity) (visit : Visit) (ctx : Context) :
    (visit.run [⟨bananaInBox, override⟩] ctx).source = ctx.source ∧
      (visit.run [⟨bananaInBox, override⟩] ctx).filename = ctx.filename := by
  obtain ⟨hsource, hname, -, -⟩ := visit.arrive_frame ctx
  cases visit with
  | leave => exact ⟨hsource, hname⟩
  | _ =>
    obtain ⟨hs, hn⟩ := ActiveRule.ask_frame ⟨bananaInBox, override⟩ _ (Visit.arrive _ ctx)
    exact ⟨hs.trans hsource, hn.trans hname⟩

/-- One visit adds what the rule says about the event that it is about, if it is about one. -/
theorem run_found (override : Option Severity) (visit : Visit) (ctx : Context) :
    (visit.run [⟨bananaInBox, override⟩] ctx).diagnostics.toList = ctx.diagnostics.toList ++
        visit.event?.toList.flatMap
          (fun e => Note.reports override (answer ctx.source ctx.filename e)) ∧
      (visit.run [⟨bananaInBox, override⟩] ctx).log.toList = ctx.log.toList ++
        visit.event?.toList.flatMap (fun e => Note.logs (answer ctx.source ctx.filename e)) := by
  obtain ⟨hsource, hname, hdiag, hlog⟩ := visit.arrive_frame ctx
  have hask := ActiveRule.ask_found ⟨bananaInBox, override⟩ visit (visit.arrive ctx)
  rw [notes_eq, hdiag, hlog] at hask
  cases visit with
  | leave => exact ⟨(List.append_nil _).symm, (List.append_nil _).symm⟩
  | output e event =>
    simpa [Visit.event?, Visit.run, Visit.arrive, Context.enterRule] using hask
  | _ =>
    simpa [Visit.event?, Visit.run, Note.reports, Note.logs] using hask

/-- A whole walk adds what the rule says about each event, in order. -/
theorem foldl_run_found (override : Option Severity) (visits : List Visit) (ctx : Context) :
    let run := visits.foldl (fun ctx visit => visit.run [⟨bananaInBox, override⟩] ctx) ctx
    run.diagnostics.toList = ctx.diagnostics.toList ++ (visits.filterMap Visit.event?).flatMap
        (fun e => Note.reports override (answer ctx.source ctx.filename e)) ∧
      run.log.toList = ctx.log.toList ++ (visits.filterMap Visit.event?).flatMap
        (fun e => Note.logs (answer ctx.source ctx.filename e)) := by
  induction visits generalizing ctx with
  | nil => exact ⟨(List.append_nil _).symm, (List.append_nil _).symm⟩
  | cons visit visits ih =>
    obtain ⟨hsource, hname⟩ := run_frame override visit ctx
    obtain ⟨hdiag, hlog⟩ := run_found override visit ctx
    obtain ⟨ihdiag, ihlog⟩ := ih (visit.run [⟨bananaInBox, override⟩] ctx)
    have hsplit : (visit :: visits).filterMap Visit.event? =
        visit.event?.toList ++ visits.filterMap Visit.event? := by
      cases hv : visit.event? <;> simp [hv]
    simp only [List.foldl_cons]
    rw [ihdiag, ihlog, hdiag, hlog, hsource, hname, hsplit, List.flatMap_append,
      List.flatMap_append, List.append_assoc, List.append_assoc]
    exact ⟨rfl, rfl⟩

end BananaInBox

/-- A walk on which no rule is asked finds nothing. -/
theorem foldl_run_nil_found (visits : List Visit) (ctx : Context) :
    let run := visits.foldl (fun ctx visit => visit.run [] ctx) ctx
    run.diagnostics = ctx.diagnostics ∧ run.log = ctx.log := by
  induction visits generalizing ctx with
  | nil => exact ⟨rfl, rfl⟩
  | cons visit visits ih =>
    obtain ⟨-, -, hdiag, hlog⟩ := visit.arrive_frame ctx
    obtain ⟨ihdiag, ihlog⟩ := ih (visit.run [] ctx)
    have hrun : visit.run [] ctx = visit.arrive ctx := by cases visit <;> rfl
    rw [hrun] at ihdiag ihlog
    simp only [List.foldl_cons, hrun]
    exact ⟨ihdiag.trans hdiag, ihlog.trans hlog⟩

end TemplateLint
