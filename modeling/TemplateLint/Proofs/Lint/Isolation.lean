import TemplateLint.Proofs.Lint.FixSafety
import TemplateLint.Proofs.Lint.Levels

/-! Rules that are asked in one run share its context, but what a rule finds beside others is what
it finds alone, as long as it looks at nothing of the context but the template. -/
namespace TemplateLint

/-- No report of the rule is made under this name. -/
def Rule.Avoids (r : Rule) (name : String) : Prop :=
  ∀ override visit ctx d, .report d ∈ (ActiveRule.mk r override).notes ctx visit → d.rule ≠ name

/-- The rule reports under its own name, and looks at the template and the name of its file only. -/
structure Rule.Independent (r : Rule) : Prop where
  named : ∀ override visit ctx d,
    .report d ∈ (ActiveRule.mk r override).notes ctx visit → d.rule = r.name
  notes_eq : ∀ override visit {ctx ctx' : Context}, ctx.source = ctx'.source →
    ctx.filename = ctx'.filename →
    (ActiveRule.mk r override).notes ctx visit = (ActiveRule.mk r override).notes ctx' visit

theorem Note.exists_of_mem_reports {override : Option Severity} {notes : List Note}
    {d : Diagnostic} (h : d ∈ reports override notes) :
    ∃ d', .report d' ∈ notes ∧ d.rule = d'.rule := by
  obtain ⟨note, hnote, hd⟩ := List.mem_filterMap.mp h
  cases note with
  | report d' =>
    obtain rfl := Option.some.inj hd
    exact ⟨d', hnote, rfl⟩
  | log e => cases hd

section Reports
variable {name : String} {override : Option Severity} {notes : List Note}

theorem Note.filter_reports_eq_nil (h : ∀ d, .report d ∈ notes → d.rule ≠ name) :
    (reports override notes).filter (·.rule = name) = [] := by
  rw [List.filter_eq_nil_iff]
  intro d hd
  obtain ⟨d', hd', hrule⟩ := exists_of_mem_reports hd
  rw [decide_eq_true_eq, hrule]
  exact h d' hd'

theorem Note.filter_reports_eq_self (h : ∀ d, .report d ∈ notes → d.rule = name) :
    (reports override notes).filter (·.rule = name) = reports override notes := by
  rw [List.filter_eq_self]
  intro d hd
  obtain ⟨d', hd', hrule⟩ := exists_of_mem_reports hd
  rw [decide_eq_true_eq, hrule]
  exact h d' hd'

end Reports

/-- Both runs are about one template, and what the joint run has found under the name is all that
the other one has found. -/
structure Context.Mirrors (name : String) (joint alone : Context) : Prop where
  source : joint.source = alone.source
  filename : joint.filename = alone.filename
  found : joint.diagnostics.toList.filter (·.rule = name) = alone.diagnostics.toList

namespace Context.Mirrors
variable {name : String} {joint alone : Context}

theorem start (name source filename : String) :
    Mirrors name (.start source filename) (.start source filename) := ⟨rfl, rfl, rfl⟩

theorem arrive (h : Mirrors name joint alone) (visit : Visit) :
    Mirrors name (visit.arrive joint) (visit.arrive alone) := by
  obtain ⟨hsource, hname, hfound, -⟩ := visit.arrive_frame joint
  obtain ⟨hsource', hname', hfound', -⟩ := visit.arrive_frame alone
  constructor
  · rw [hsource, hsource', h.source]
  · rw [hname, hname', h.filename]
  · rw [hfound, hfound', h.found]

/-- Asking a rule that avoids the name goes unnoticed in the other run. -/
theorem ask_other (h : Mirrors name joint alone) {a : ActiveRule} (ha : a.rule.Avoids name)
    (visit : Visit) : Mirrors name (a.ask visit joint) alone := by
  obtain ⟨hsource, hname⟩ := a.ask_frame visit joint
  obtain ⟨hfound, -⟩ := a.ask_found visit joint
  refine ⟨hsource.trans h.source, hname.trans h.filename, ?_⟩
  rw [hfound, List.filter_append, Note.filter_reports_eq_nil (ha a.override visit _),
    List.append_nil, h.found]

theorem ask_others (h : Mirrors name joint alone) {others : List ActiveRule}
    (hothers : ∀ a ∈ others, a.rule.Avoids name) (visit : Visit) :
    Mirrors name (others.foldl (fun ctx a => a.ask visit ctx) joint) alone := by
  induction others generalizing joint with
  | nil => exact h
  | cons a others ih =>
    obtain ⟨ha, hothers⟩ := List.forall_mem_cons.mp hothers
    exact ih (h.ask_other ha visit) hothers

/-- An independent rule says the same in both runs. -/
theorem ask_own {a : ActiveRule} (h : Mirrors a.rule.name joint alone)
    (ha : a.rule.Independent) (visit : Visit) :
    Mirrors a.rule.name (a.ask visit joint) (a.ask visit alone) := by
  obtain ⟨hsource, hname⟩ := a.ask_frame visit joint
  obtain ⟨hsource', hname'⟩ := a.ask_frame visit alone
  obtain ⟨hfound, -⟩ := a.ask_found visit joint
  obtain ⟨hfound', -⟩ := a.ask_found visit alone
  have hnotes : a.notes (joint.enterRule a.rule.name a.override) visit =
      a.notes (alone.enterRule a.rule.name a.override) visit :=
    ha.notes_eq a.override visit h.source h.filename
  constructor
  · rw [hsource, hsource', h.source]
  · rw [hname, hname', h.filename]
  · rw [hfound, hfound', List.filter_append, h.found, hnotes,
      Note.filter_reports_eq_self (ha.named a.override visit _)]

section Round
variable {own : Option ActiveRule} (hown : ∀ a ∈ own, a.rule.Independent ∧ a.rule.name = name)
  {front back : List ActiveRule} (hothers : ∀ a ∈ front ++ back, a.rule.Avoids name)
include hown hothers

/-- One visit of the joint run, in which the rule is asked somewhere among the others if it is
active, is one visit of the rule alone. -/
theorem run (h : Mirrors name joint alone) (visit : Visit) :
    Mirrors name (visit.run (front ++ own.toList ++ back) joint) (visit.run own.toList alone) := by
  have hround : Mirrors name
      ((front ++ own.toList ++ back).foldl (fun ctx a => a.ask visit ctx) (visit.arrive joint))
      (own.toList.foldl (fun ctx a => a.ask visit ctx) (visit.arrive alone)) := by
    have hfront := (h.arrive visit).ask_others
      (fun a ha => hothers a (List.mem_append_left _ ha)) visit
    rw [List.foldl_append, List.foldl_append]
    apply ask_others _ (fun a ha => hothers a (List.mem_append_right _ ha))
    cases own with
    | none => exact hfront
    | some a =>
      obtain ⟨hindependent, rfl⟩ := hown a rfl
      exact hfront.ask_own hindependent visit
  cases visit with
  | leave => exact h.arrive .leave
  | _ => exact hround

theorem foldl_run (h : Mirrors name joint alone) (visits : List Visit) :
    Mirrors name
      (visits.foldl (fun ctx visit => visit.run (front ++ own.toList ++ back) ctx) joint)
      (visits.foldl (fun ctx visit => visit.run own.toList ctx) alone) := by
  induction visits generalizing joint alone with
  | nil => exact h
  | cons visit visits ih => exact ih (h.run hown hothers visit)

end Round
end Context.Mirrors

namespace Linter

theorem rule_of_mem_activate? {linter : Linter} {r : Rule} {a : ActiveRule}
    (h : a ∈ linter.activate? r) : a.rule = r := by
  by_cases hoff : linter.level? r.name = some .off
  · rw [activate?_eq_none hoff] at h
    cases h
  · rw [activate?_eq_some hoff] at h
    cases h
    rfl

/-- What an independent rule finds beside rules that avoid its name is what it finds alone. -/
theorem filter_lint_eq {joint alone : Linter} {r : Rule} (hr : r.Independent)
    {front back : List Rule} (hrules : joint.rules = front ++ r :: back)
    (hothers : ∀ s ∈ front ++ back, s.Avoids r.name) (halone : alone.rules = [r])
    (hlevel : alone.level? r.name = joint.level? r.name) (root : RootNode) (filename : String) :
    (joint.lint root filename).diagnostics.filter (·.rule = r.name) =
      (alone.lint root filename).diagnostics := by
  have hsame : alone.activate? r = joint.activate? r := by
    unfold activate?
    rw [hlevel]
  have hactive : alone.activeRules = (joint.activate? r).toList := by
    rw [activeRules, halone, ← hsame, List.filterMap_eq_flatMap_toList, List.flatMap_singleton]
  have hjoint : joint.activeRules = front.filterMap joint.activate? ++
      (joint.activate? r).toList ++ back.filterMap joint.activate? := by
    rw [activeRules, hrules, List.filterMap_append, ← List.singleton_append (l := back),
      List.filterMap_append, List.append_assoc, List.filterMap_eq_flatMap_toList (l := [r]),
      List.flatMap_singleton]
  have hown : ∀ a ∈ joint.activate? r, a.rule.Independent ∧ a.rule.name = r.name := by
    intro a ha
    rw [rule_of_mem_activate? ha]
    exact ⟨hr, rfl⟩
  have havoid : ∀ a ∈ front.filterMap joint.activate? ++ back.filterMap joint.activate?,
      a.rule.Avoids r.name := by
    intro a ha
    rw [← List.filterMap_append] at ha
    obtain ⟨s, hs, ha⟩ := List.mem_filterMap.mp ha
    rw [rule_of_mem_activate? ha]
    exact hothers s hs
  have hmirrors := (Context.Mirrors.start r.name root.source filename).foldl_run hown havoid
    root.visits
  rw [← hjoint, ← hactive] at hmirrors
  exact hmirrors.found

end Linter

theorem BananaInBox.rule_of_mem_check {event : BoundEvent} {ctx : Context} {d : Diagnostic}
    (h : .report d ∈ check event ctx) : d.rule = info.name := by
  unfold check at h
  split at h
  next =>
    dsimp only at h
    split at h
    next => cases h
    next =>
      split at h
      next => simp at h
      next =>
        simp only [List.mem_cons, reduceCtorEq, Note.report.injEq, List.not_mem_nil, or_false,
          false_or] at h
        rw [h]
        rfl
  next => cases h

theorem BananaInBox.independent : bananaInBox.Independent := by
  constructor
  · intro override visit ctx d hd
    rw [BananaInBox.notes_eq] at hd
    obtain ⟨event, -, hd⟩ := List.mem_flatMap.mp hd
    exact rule_of_mem_check hd
  · intro override visit ctx ctx' hsource hname
    rw [BananaInBox.notes_eq, BananaInBox.notes_eq, hsource, hname]

namespace Linter

/-- Other rules that report under names of their own do not touch the rule, wherever they stand and
whatever levels there are. The diagnostics under its name are those of a linter that has this rule
only, at the same level, and applying the fixes of these diagnostics has the same outcome. -/
theorem lint_isolates {joint alone : Linter} {front back : List Rule}
    (hrules : joint.rules = front ++ bananaInBox :: back)
    (hothers : ∀ r ∈ front ++ back, r.Avoids BananaInBox.info.name)
    (halone : alone.rules = [bananaInBox])
    (hlevel : alone.level? BananaInBox.info.name = joint.level? BananaInBox.info.name)
    (root : RootNode) (filename : String) :
    let own := (joint.lint root filename).diagnostics.filter (·.rule = BananaInBox.info.name)
    own = (alone.lint root filename).diagnostics ∧
      ∃ outcome, applyFixes? root.source own = some outcome ∧
        (alone.lint root filename).applyFixes? root.source = some outcome := by
  intro own
  have hown : own = (alone.lint root filename).diagnostics :=
    filter_lint_eq BananaInBox.independent hrules hothers halone hlevel root filename
  obtain ⟨outcome, houtcome⟩ := exists_applyFixes? halone root filename
  refine ⟨hown, outcome, ?_, houtcome⟩
  rw [hown]
  exact houtcome

end Linter

/-- A rule that reports at each element and event how much has been found before. -/
def Rule.tally (name : String) : Rule :=
  let report (ctx : Context) : List Note :=
    [.report ⟨name, .warning, toString ctx.diagnostics.size, 0, 0, none, none⟩]
  { info := ⟨name, "", "", .style, false, .warning⟩
    onElement := fun _ ctx => report ctx
    onOutput := fun _ _ ctx => report ctx }

theorem Rule.tally_avoids {name other : String} (h : name ≠ other) : (tally name).Avoids other := by
  intro override visit ctx d hd
  cases visit with
  | enter e =>
    obtain rfl := Note.report.inj (List.mem_singleton.mp hd)
    exact h
  | output e event =>
    obtain rfl := Note.report.inj (List.mem_singleton.mp hd)
    exact h
  | _ => cases hd

namespace Linter

/-- A box in a run with two rules that look at what has been found. -/
theorem lint_isolates_between_tallies :
    let root := RootNode.ofEvents "([a])=\"b\""
      [⟨"[a]", .regular, "b", none, ⟨⟨0, 1, 1⟩, ⟨9, 1, 10⟩, "([a])=\"b\""⟩, none⟩]
    let levels := [("angular/banana-in-box", RuleLevel.warn)]
    let joint : Linter := ⟨[.tally "a", bananaInBox, .tally "b"], levels⟩
    let alone : Linter := ⟨[bananaInBox], levels⟩
    let own := (joint.lint root "t").diagnostics.filter (·.rule = BananaInBox.info.name)
    (∀ r ∈ [Rule.tally "a", .tally "b"], r.Avoids BananaInBox.info.name) ∧
      (joint.lint root "t").diagnostics.map Diagnostic.rule =
        ["a", "b", "a", "angular/banana-in-box", "b"] ∧
      own = (alone.lint root "t").diagnostics ∧
      ∃ outcome, applyFixes? root.source own = some outcome ∧
        (alone.lint root "t").applyFixes? root.source = some outcome := by
  intro root levels joint alone own
  have hothers : ∀ r ∈ [Rule.tally "a", .tally "b"], r.Avoids BananaInBox.info.name := by
    have hname : ∀ name ∈ ["a", "b"], name ≠ BananaInBox.info.name := by decide
    intro r hr
    obtain ⟨name, hmem, rfl⟩ := List.mem_map.mp (show r ∈ ["a", "b"].map Rule.tally from hr)
    exact Rule.tally_avoids (hname name hmem)
  refine ⟨hothers, by decide +kernel, ?_⟩
  have hrules : joint.rules = [Rule.tally "a"] ++ bananaInBox :: [.tally "b"] := rfl
  have halone : alone.rules = [bananaInBox] := rfl
  exact lint_isolates hrules hothers halone rfl root "t"

end Linter
end TemplateLint
